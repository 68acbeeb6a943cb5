import LayoutDesigner.Proofs.Copying
import LayoutDesigner.Proofs.Hierarchy

/-!
# Removing, adding and copying nodes

Removing a node takes along what is below it, which is a forest's every node from which the parents
lead to it. Adding a node above its siblings keeps a store orderly, and what is refused changes
nothing.
-/

namespace LayoutDesigner.Store

open Arith (Lawful)

variable {α : Type} {s t : Store α} {id other parent : Text} {n m : Node α} {depth : Nat}

/-- Some ids of a node and what is below it. -/
structure Grown (s : Store α) (id : Text) (found : List Text) : Prop where
  start : id ∈ found
  distinct : found.Nodup
  below : ∀ other ∈ found, other = id ∨ s.LeadsUp other id

/-- No more ids are found than there are nodes. -/
theorem Grown.length_le {found : List Text} (grown : Grown s id found) (isNode : id ∈ s.ids) :
    found.length ≤ s.size := by
  rw [← length_ids]
  refine (List.subperm_of_subset grown.distinct fun other listed => ?_).length_le
  rcases grown.below other listed with rfl | leads
  · exact isNode
  · exact leads.mem_ids

/-- One turn over some nodes leaves what was found where it is. -/
theorem prefix_foldl_grow (nodes : List (Node α)) (found : List Text) :
    found <+: nodes.foldl (fun found n =>
      if found.elem n.parent && !found.elem n.id then found ++ [n.id] else found) found := by
  induction nodes generalizing found with
  | nil => exact List.prefix_rfl
  | cons n rest ih =>
      rw [List.foldl_cons]
      split
      · exact (List.prefix_append ..).trans (ih _)
      · exact ih found

/-- One round of growing adds to what was found. -/
theorem prefix_growOnce (s : Store α) (found : List Text) : found <+: s.growOnce found :=
  prefix_foldl_grow s.nodes found

/-- One turn over some nodes only adds ids of what is below; where it adds none, the set is closed for them. -/
theorem grown_foldl {nodes : List (Node α)} {found : List Text} (distinct : s.ids.Nodup)
    (part : nodes ⊆ s.nodes) (grown : Grown s id found) :
    let turned := nodes.foldl (fun found n =>
      if found.elem n.parent && !found.elem n.id then found ++ [n.id] else found) found
    Grown s id turned ∧ (turned = found → ∀ n ∈ nodes, n.parent ∈ found → n.id ∈ found) := by
  induction nodes generalizing found with
  | nil => simpa using grown
  | cons n rest ih =>
      have partRest : rest ⊆ s.nodes := fun m member => part (List.mem_cons_of_mem _ member)
      rw [List.foldl_cons]
      split
      · next adds =>
          simp only [Bool.and_eq_true, Bool.not_eq_true', List.elem_iff, ← Bool.not_eq_true] at adds
          have grown' : Grown s id (found ++ [n.id]) := by
            refine ⟨List.mem_append_left _ grown.start, ?_, ?_⟩
            · rw [List.nodup_append]
              refine ⟨grown.distinct, List.nodup_singleton _, ?_⟩
              rintro other listed _ isLast rfl
              exact adds.2 (List.mem_singleton.mp isLast ▸ listed)
            · intro other listed
              rcases List.mem_append.mp listed with before | isLast
              · exact grown.below other before
              · rw [List.mem_singleton.mp isLast]
                have link := parent?_of_mem distinct (part List.mem_cons_self)
                exact .inr ((leadsUp_of_parent? link).mpr (grown.below n.parent adds.1))
          have longer := (prefix_foldl_grow rest (found ++ [n.id])).length_le
          refine ⟨(ih partRest grown').1, fun same => ?_⟩
          rw [same, List.length_append, List.length_singleton] at longer
          omega
      · next stays =>
          obtain ⟨turned, closed⟩ := ih partRest grown
          refine ⟨turned, fun same m member inFound => ?_⟩
          rcases List.mem_cons.mp member with rfl | inRest
          · simpa [inFound] using stays
          · exact closed same m inRest inFound

/-- Turns over the store, one after another, until one adds nothing. -/
inductive Settles (s : Store α) : (found closure : List Text) → Prop
  | still {found : List Text} (same : s.growOnce found = found) : Settles s found found
  | turn {found closure : List Text} (adds : s.growOnce found ≠ found)
      (settles : Settles s (s.growOnce found) closure) : Settles s found closure

/-- What the turns end with is closed. -/
theorem Settles.closed {found closure : List Text} (distinct : s.ids.Nodup) (settles : Settles s found closure)
    (grown : Grown s id found) :
    Grown s id closure ∧ ∀ n ∈ s.nodes, n.parent ∈ closure → n.id ∈ closure := by
  induction settles with
  | still same =>
      exact ⟨grown, (grown_foldl distinct (List.Subset.refl _) grown).2 same⟩
  | turn _ _ ih => exact ih (grown_foldl distinct (List.Subset.refl _) grown).1

/-- The turns end: each adds one of the nodes at least. -/
theorem settles_growUntilStable {bound : Nat} {found : List Text} (distinct : s.ids.Nodup) (isNode : id ∈ s.ids)
    (grown : Grown s id found) (enough : s.size < bound + found.length) :
    Settles s found (s.growUntilStable bound found) := by
  induction bound generalizing found with
  | zero =>
      have few := grown.length_le isNode
      omega
  | succ bound ih =>
      have turned := (grown_foldl distinct (List.Subset.refl _) grown).1
      have longer := (prefix_growOnce s found).length_le
      rw [growUntilStable]
      split
      · next same => exact .still ((prefix_growOnce s found).eq_of_length same.symm).symm
      · next differs =>
          refine .turn (fun same => differs (congrArg List.length same)) (ih turned ?_)
          omega

/-- A single id is grown from itself. -/
theorem Grown.singleton (s : Store α) (id : Text) : Grown s id [id] :=
  ⟨List.mem_cons_self, List.nodup_singleton id, by simp⟩

/-- The subtree is where growing settles. -/
theorem settles_subtreeIds (distinct : s.ids.Nodup) (isNode : id ∈ s.ids) : Settles s [id] (s.subtreeIds id) :=
  settles_growUntilStable distinct isNode (.singleton s id) (by rw [List.length_singleton]; omega)

/-- The subtree is grown from its top. -/
theorem grown_subtreeIds (distinct : s.ids.Nodup) (isNode : id ∈ s.ids) : Grown s id (s.subtreeIds id) :=
  ((settles_subtreeIds distinct isNode).closed distinct (.singleton s id)).1

/-- The ids that a node's subtree is removed by are its own and those of the nodes below it. -/
theorem mem_subtreeIds (distinct : s.ids.Nodup) (isNode : id ∈ s.ids) :
    other ∈ s.subtreeIds id ↔ other = id ∨ s.LeadsUp other id := by
  obtain ⟨grown, closed⟩ := (settles_subtreeIds distinct isNode).closed distinct (.singleton s id)
  have down : ∀ {child parent}, s.parent? child = some parent → parent ∈ s.subtreeIds id → child ∈ s.subtreeIds id := by
    intro child parent link listed
    obtain ⟨n, found⟩ := exists_find? (mem_ids_of_parent? link)
    rw [parent?_of_find? found, Option.some_inj] at link
    rw [← id_of_find? found]
    exact closed n (mem_of_find? found) (link ▸ listed)
  constructor
  · exact grown.below other
  · rintro (rfl | leads)
    · exact grown.start
    · induction leads using Relation.TransGen.head_induction_on with
      | single link => exact down link grown.start
      | head link _ ih => exact down link ih

variable [Arith α]

/-- What removing a node does: all that is within it goes, and its siblings are renumbered. -/
theorem ends_deleteSubtree (plain : s.IsPlain) {done : List Text → Store α → Prop}
    {failed : Fault → Store α → Prop} (stays : s.find? id = none → done [] s)
    (removes : ∀ n, s.find? id = some n →
      done (s.subtreeIds id) ((s.removeAll (s.subtreeIds id)).normalizeZ n.parent)) :
    (deleteSubtree id).Ends s done failed := by
  unfold deleteSubtree
  simp only [Edit.ends_bind, Edit.ends_get]
  split
  · next missing => exact stays missing
  · next n found =>
      have plain' : (s.removeAll (s.subtreeIds id)).IsPlain := All.removeAll plain _
      simp only [Edit.ends_bind, Edit.ends_get, Edit.ends_set, Edit.ends_modify, Edit.ends_pure]
      exact Edit.ends_lift_ok (checkLayers_plain plain') (removes n found)

/-- Removing a node with all that is below it keeps a store orderly. -/
theorem orderly_deleteSubtree (orderly : s.IsOrderly) :
    (deleteSubtree id).Ends s (fun _ t => t.IsOrderly ∧ (s.IsMeasured → t.IsMeasured))
      fun _ _ => False := by
  refine ends_deleteSubtree orderly.plain (fun _ => ⟨orderly, fun measured => measured⟩) fun n found => ?_
  have distinct := orderly.forest.distinct
  have removed : ∀ {other}, other ∈ s.subtreeIds id ↔ other = id ∨ s.LeadsUp other id :=
    mem_subtreeIds distinct (mem_ids_of_find? found)
  refine ⟨isOrderly_normalizeZ (orderly.forest.removeAll fun m member inside => ?_)
    (All.removeAll orderly.plain _) fun place other => ?_, fun measured => ?_⟩
  · have link := parent?_of_mem distinct member
    exact removed.mpr (.inr ((leadsUp_of_parent? link).mpr (removed.mp inside)))
  · -- What is removed has lost all children; of the others only the parent of `id` loses one.
    by_cases inside : place ∈ s.subtreeIds id
    · refine .of_no_children (List.filter_eq_nil_iff.mpr fun m member isChild => ?_)
      obtain ⟨isNode, stays⟩ := List.mem_filter.mp member
      rw [decide_eq_true_eq] at isChild
      have link := parent?_of_mem distinct isNode
      have gone := removed.mpr (.inr ((leadsUp_of_parent? link).mpr (removed.mp (isChild ▸ inside))))
      simp [gone] at stays
    · refine (orderly.layered place).congr (congrArg (List.map Node.z) ?_)
      simp only [children, removeAll, List.filter_filter]
      refine List.filter_congr fun m member => ?_
      by_cases isChild : m.parent = place
      · have stays : m.id ∉ s.subtreeIds id := by
          intro gone
          rcases removed.mp gone with same | leads
          · have sameNode := eq_of_id_eq distinct member (mem_of_find? found)
              (same.trans (id_of_find? found).symm)
            exact other (isChild.symm.trans (congrArg Node.parent sameNode))
          · have link := parent?_of_mem distinct member
            exact inside (isChild ▸ removed.mpr ((leadsUp_of_parent? link).mp leads))
        simp [isChild, stays]
      · simp [isChild]
  · have rest : (s.removeAll (s.subtreeIds id)).IsMeasured :=
      ⟨All.removeAll measured.nodes _, measured.canvasW, measured.canvasH⟩
    exact rest.normalizeZ

/-- A node that may be added: it is no root, under the root or a container, and above its
siblings. -/
structure Addable (s : Store α) (n : Node α) : Prop where
  notRoot : n.id ≠ root
  contained : n.parent = root ∨ ∃ p ∈ s.nodes, p.id = n.parent ∧ p.kind.isContainer
  isNext : n.z = s.nextZ n.parent
  plain : n.unchecked = []

/-- What can be added can be added after a change of place and sides. -/
theorem Addable.of_reshaped (addable : s.Addable n) (reshaped : Node.Reshaped n m) : s.Addable m where
  notRoot := reshaped.id ▸ addable.notRoot
  contained := reshaped.parent ▸ addable.contained
  isNext := reshaped.parent ▸ reshaped.z.trans addable.isNext
  plain := reshaped.plain addable.plain

/-- A forest with dense layers is one with a new node on top of its siblings. -/
theorem isOrderly_add (orderly : s.IsOrderly) (fresh : n.id ∉ s.ids) (addable : s.Addable n) :
    IsOrderly { s with nodes := s.nodes ++ [n] } where
  forest := orderly.forest.add fresh addable.notRoot addable.contained
  plain := by
    intro m member
    rcases List.mem_append.mp member with isOld | isNew
    · exact orderly.plain m isOld
    · rw [List.mem_singleton.mp isNew]
      exact addable.plain
  layered parent := by
    refine (orderly.layered parent).add n fun isChild => ?_
    rw [addable.isNext, isChild, nextZ_of_layered orderly.plain (orderly.layered parent)]

/-- A plain node is added where no other one has its id. -/
theorem add_plain (plain : n.unchecked = []) (added : s.add n = .ok t) :
    n.id ∉ s.ids ∧ t = { s with nodes := s.nodes ++ [n] } := by
  have written : n.written .id = .str n.id := by simp [Node.written, plain, Unchecked.value?]
  rw [Store.add, written] at added
  by_cases known : s.contains n.id
  · simp only [known, if_true] at added
    cases added
  · simp only [known] at added
    exact ⟨mt contains_iff.mpr known, (Except.ok.inj added).symm⟩

/-- Clamping a node that is not in the store is a run of the clamping in its parent's box. -/
theorem clampLoose_ok {least : Value α} (ran : s.clampLoose n least = .ok m) :
    Node.clampIn (s.parentSize n.parent).1 (s.parentSize n.parent).2 least n = .ok () m := by
  rw [clampLoose] at ran
  dsimp only at ran
  split at ran
  · next inside => exact Except.ok.inj ran ▸ inside
  · cases ran

/-- Clamping a loose node changes its place and sides alone. -/
theorem reshaped_of_clampLoose {least : Value α} (ran : s.clampLoose n least = .ok m) :
    Node.Reshaped n m :=
  (Node.keeps_clampIn n).returned (clampLoose_ok ran)

/-- Clamping a loose node of a measured store measures it. -/
theorem measured_of_clampLoose [Lawful α] {least : Value α} (measured : s.IsMeasured)
    (leastMeasure : least.IsMeasure) (plain : n.unchecked = []) (anchorX : Arith.IsReal n.anchorX)
    (anchorY : Arith.IsReal n.anchorY) (ran : s.clampLoose n least = .ok m) : m.IsMeasured := by
  have sizes := parentSize_isMeasure measured n.parent
  exact (Node.measured_clampIn plain anchorX anchorY leastMeasure sizes.1 sizes.2).returned
    (clampLoose_ok ran)

/-- What placing a node does: it is clamped, and added if its id is new. -/
theorem ends_place_of (plain : n.unchecked = []) {done : Unit → Store α → Prop}
    {failed : Fault → Store α → Prop} (fails : ∀ fault, failed fault s)
    (adds : ∀ m, s.clampLoose n (Value.int leastSide) = .ok m → n.id ∉ s.ids →
      done () { s with nodes := s.nodes ++ [m] }) : (Store.place n).Ends s done failed := by
  unfold Store.place
  simp only [Edit.ends_bind, Edit.ends_get, Edit.ends_set, Edit.ends_lift]
  refine ⟨fun m clamped => ⟨fun t added => ?_, fun fault _ => fails fault⟩, fun fault _ => fails fault⟩
  have reshaped := reshaped_of_clampLoose clamped
  obtain ⟨fresh, rfl⟩ := add_plain (reshaped.plain plain) added
  exact adds m clamped (reshaped.id ▸ fresh)

/-- Adding a node inside its parent keeps a store orderly, and what is refused changes nothing. -/
theorem orderly_place [Lawful α] (orderly : s.IsOrderly) (addable : s.Addable n) :
    (Store.place n).Ends s
      (fun _ t => t.IsOrderly ∧ t.ids = s.ids ++ [n.id] ∧
        (s.IsMeasured → Arith.IsReal n.anchorX → Arith.IsReal n.anchorY → t.IsMeasured))
      fun _ t => t = s := by
  refine ends_place_of addable.plain (fun _ => rfl) fun m clamped fresh => ?_
  have reshaped := reshaped_of_clampLoose clamped
  refine ⟨isOrderly_add orderly (reshaped.id ▸ fresh) (addable.of_reshaped reshaped), ?_,
    fun measured anchorX anchorY => ?_⟩
  · rw [ids, List.map_append, List.map_singleton, reshaped.id]
    rfl
  · have isMeasured := measured_of_clampLoose measured
      (Value.isMeasure_num.mpr (Lawful.fits_ofInt (by decide))) addable.plain anchorX anchorY clamped
    exact ⟨All.add measured.nodes isMeasured, measured.canvasW, measured.canvasH⟩

/-- Adding a node of a new id, whose measures fit, does not fail. -/
theorem ends_place [Lawful α] (measured : s.IsMeasured) (isMeasured : n.IsMeasured) (fresh : n.id ∉ s.ids) :
    (Store.place n).Ends s (fun _ _ => True) fun _ _ => False := by
  have sizes := parentSize_isMeasure measured n.parent
  have leastMeasure : (Value.int leastSide : Value α).IsMeasure :=
    Value.isMeasure_num.mpr (Lawful.fits_ofInt (by decide))
  obtain ⟨_, m, ran, -⟩ := (Node.ends_clampIn isMeasured leastMeasure sizes.1 sizes.2).ok
  have reshaped : Node.Reshaped n m := (Node.keeps_clampIn n).returned ran
  have clamped : s.clampLoose n (Value.int leastSide) = .ok m := by
    simp only [clampLoose, ran]
  have unknown : ¬s.contains m.id := mt contains_iff.mp (reshaped.id ▸ fresh)
  have written : m.written .id = .str m.id := by
    simp [Node.written, reshaped.plain isMeasured.plain, Unchecked.value?]
  have added : s.add m = .ok { s with nodes := s.nodes ++ [m] } := by
    rw [Store.add, written]
    simp only [unknown]
    rfl
  unfold Store.place
  simp only [Edit.ends_bind, Edit.ends_get, Edit.ends_set]
  refine Edit.ends_lift_ok clamped ?_
  exact Edit.ends_lift_ok added trivial

/-- The kind of a name is read back. -/
theorem ofValue_name (kind : Kind) : Kind.ofValue (.str kind.name : Value α) = .ok kind := by
  cases kind <;> rfl

/-- A new node of any kind can be made in a box with sides that fit. -/
theorem exists_create [Lawful α] {size : Value α × Value α} (kind : Kind) (id parent : Text)
    (width : size.1.IsMeasure) (height : size.2.IsMeasure) (z : Int) :
    ∃ n, Node.create kind id parent size z = .ok n ∧ n.IsMeasured := by
  have middle : ∀ {side : Value α}, side.IsMeasure → ∃ a p k, side.asOperand = .ok a ∧
      Arith.mul a Arith.half = .ok p ∧ roundHalfUp p = .ok k ∧ Arith.Fits (Arith.ofInt k : α) := by
    rintro side ⟨a, isOperand, fits⟩
    obtain ⟨p, isProduct⟩ := Lawful.mul_ok fits isReal_half.fits
    obtain ⟨k, isNearest, kFits⟩ := roundHalfUp_ok (Lawful.isReal_mul isProduct (.inr isReal_half)).fits
    exact ⟨a, p, k, isOperand, isProduct, isNearest, kFits⟩
  obtain ⟨a, p, x, isA, isP, isX, xFits⟩ := middle width
  obtain ⟨b, q, y, isB, isQ, isY, yFits⟩ := middle height
  have sides : Arith.Fits (Arith.ofInt kind.descriptor.size.1 : α) ∧
      Arith.Fits (Arith.ofInt kind.descriptor.size.2 : α) := by
    cases kind <;> exact ⟨Lawful.fits_ofInt (by decide), Lawful.fits_ofInt (by decide)⟩
  exact ⟨_, bind_eq_ok.mpr ⟨a, isA, bind_eq_ok.mpr ⟨p, isP, bind_eq_ok.mpr ⟨x, isX,
    bind_eq_ok.mpr ⟨b, isB, bind_eq_ok.mpr ⟨q, isQ, bind_eq_ok.mpr ⟨y, isY, rfl⟩⟩⟩⟩⟩⟩,
    rfl, isReal_half, isReal_half, xFits, yFits, sides.1, sides.2⟩

/-- What a new node is made of. -/
structure IsCreated (kind : Kind) (id parent : Text) (z : Int) (n : Node α) : Prop where
  id : n.id = id
  name : n.name = kind.name
  parent : n.parent = parent
  z : n.z = z
  anchorX : n.anchorX = Arith.half
  anchorY : n.anchorY = Arith.half
  bgColor : n.bgColor = kind.descriptor.bgColor
  canvas : (n.canvasW, n.canvasH) = kind.descriptor.canvasSize
  scrollbarThickness : n.scrollbarThickness = kind.descriptor.scrollbarThickness
  kind : n.kind = kind
  bgAlpha : n.bgAlpha = Arith.one
  textColor : n.textColor = Rgb.white
  font : n.font = defaultFont
  extensions : n.extensions = []
  plain : n.unchecked = []

/-- A new node has integers for its place and its sides. -/
theorem create_places {kind : Kind} {size : Value α × Value α} {z : Int}
    (created : Node.create kind id parent size z = .ok n) : IsCreated kind id parent z n ∧
      ∃ x y w h : Int, n.x = Arith.ofInt x ∧ n.y = Arith.ofInt y ∧ n.w = Arith.ofInt w ∧ n.h = Arith.ofInt h := by
  obtain ⟨w, -, created⟩ := bind_eq_ok.mp created
  obtain ⟨dx, -, created⟩ := bind_eq_ok.mp created
  obtain ⟨x, -, created⟩ := bind_eq_ok.mp created
  obtain ⟨h, -, created⟩ := bind_eq_ok.mp created
  obtain ⟨dy, -, created⟩ := bind_eq_ok.mp created
  obtain ⟨y, -, created⟩ := bind_eq_ok.mp created
  obtain rfl := Except.ok.inj created
  exact ⟨⟨rfl, rfl, rfl, rfl, rfl, rfl, rfl, rfl, rfl, rfl, rfl, rfl, rfl, rfl, rfl⟩, x, y, _, _, rfl, rfl, rfl, rfl⟩

/-- A new node is as it was asked for. -/
theorem create_ok {kind : Kind} {size : Value α × Value α} {z : Int}
    (created : Node.create kind id parent size z = .ok n) : IsCreated kind id parent z n :=
  (create_places created).1

/-- A new node on another layer is as it was asked for. -/
theorem IsCreated.setZ {kind : Kind} {z : Int} (created : IsCreated kind id parent z n) (top : Int) :
    IsCreated kind id parent top (n.setZ top) :=
  { created with z := rfl, plain := Node.without_plain created.plain .zIndex }

/-- What creating a node does: a new node of the kind, above the children of the parent, is placed. -/
theorem ends_createNode_of (plain : s.IsPlain) {kind : Value α} {done : Unit → Store α → Prop}
    {failed : Fault → Store α → Prop} (fails : ∀ fault, failed fault s)
    (places : ∀ k n, IsCreated k id parent (s.nextZ parent) n → (Store.place n).Ends s done failed) :
    (createNode kind id parent).Ends s done failed := by
  unfold createNode
  simp only [Edit.ends_bind, Edit.ends_get, Edit.ends_lift]
  refine ⟨fun k _ => ⟨fun n created => ⟨fun m raised => ?_, fun fault _ => fails fault⟩,
    fun fault _ => fails fault⟩, fun fault _ => fails fault⟩
  rw [onTop_plain plain] at raised
  obtain rfl := Except.ok.inj raised
  exact places k _ ((create_ok created).setZ _)

/-- Creating a node under the root keeps a store orderly. -/
theorem orderly_createNode [Lawful α] (orderly : s.IsOrderly) (kind : Value α) (notRoot : id ≠ root) :
    (createNode kind id root).Ends s
      (fun _ t => t.IsOrderly ∧ t.ids = s.ids ++ [id] ∧ (s.IsMeasured → t.IsMeasured))
      fun _ t => t = s := by
  refine ends_createNode_of orderly.plain (fun _ => rfl) fun k n created => ?_
  have addable : s.Addable n :=
    ⟨created.id ▸ notRoot, .inl created.parent, created.z.trans (congrArg s.nextZ created.parent.symm),
      created.plain⟩
  refine (orderly_place orderly addable).mono ?_ fun _ _ same => same
  rintro _ t ⟨orderly', sameIds, measured⟩
  refine ⟨orderly', created.id ▸ sameIds, fun isMeasured => measured isMeasured ?_ ?_⟩
  · exact created.anchorX ▸ isReal_half
  · exact created.anchorY ▸ isReal_half

/-- A node of a named kind and a new id can be created where measures fit. -/
theorem ends_createNode [Lawful α] (measured : s.IsMeasured) (fresh : id ∉ s.ids) (kind : Kind)
    (parent : Text) :
    (createNode (.str kind.name) id parent).Ends s (fun _ _ => True) fun _ _ => False := by
  have sizes := parentSize_isMeasure measured parent
  obtain ⟨n, created, isMeasured⟩ := exists_create kind id parent sizes.1 sizes.2 1
  unfold createNode
  simp only [Edit.ends_bind, Edit.ends_get]
  refine Edit.ends_lift_ok (ofValue_name kind) ?_
  refine Edit.ends_lift_ok created ?_
  refine Edit.ends_lift_ok (onTop_plain measured.isPlain parent n) ?_
  exact ends_place measured (isMeasured.setZ _) ((create_ok created).id ▸ fresh)

/-- A copy of a typed node has a name and an id anew, stands above the siblings, and is moved. -/
theorem copyOf_iff {offset : Value α} (plain : s.IsPlain) (isPlain : n.unchecked = []) :
    s.copyOf n id offset depth = .ok m ↔ n.IsCopyableWhole depth ∧ ∃ name a x y, n.calledText = .ok name ∧
      offset.asOperand = .ok a ∧ Arith.add n.x a = .ok x ∧ Arith.add n.y a = .ok y ∧
      m = ((({ n with id, name := name ++ ("Copy" : Text) } : Node α).setZ (s.nextZ n.parent)).setX x).setY y := by
  constructor
  · intro copied
    obtain ⟨_, room, copied⟩ := bind_eq_ok.mp copied
    obtain ⟨name, isName, copied⟩ := bind_eq_ok.mp copied
    obtain ⟨copy, raised, copied⟩ := bind_eq_ok.mp copied
    obtain ⟨a, isOffset, copied⟩ := bind_eq_ok.mp copied
    obtain ⟨_, -, copied⟩ := bind_eq_ok.mp copied
    obtain ⟨x, isX, copied⟩ := bind_eq_ok.mp copied
    obtain ⟨y, isY, copied⟩ := bind_eq_ok.mp copied
    rw [onTop_plain plain, Node.checked_plain isPlain, Node.checked_plain isPlain] at raised
    obtain rfl := Except.ok.inj raised
    rw [Node.needCopy_eq] at room
    exact ⟨Value.roomFor_ok_iff.mp ⟨_, room⟩, name, a, x, y, isName, isOffset, isX, isY, (Except.ok.inj copied).symm⟩
  · rintro ⟨copyable, name, a, x, y, isName, isOffset, isX, isY, rfl⟩
    obtain ⟨_, room⟩ : ∃ done, n.needCopy depth = .ok done := Node.needCopy_eq n ▸ Value.roomFor_ok_iff.mpr copyable
    rw [copyOf, Node.checked_plain isPlain, Node.checked_plain isPlain]
    exact bind_eq_ok.mpr ⟨_, room, bind_eq_ok.mpr ⟨name, isName,
      bind_eq_ok.mpr ⟨_, onTop_plain plain n.parent _, bind_eq_ok.mpr ⟨a, isOffset,
      bind_eq_ok.mpr ⟨_, Node.needNumbers_plain isPlain _, bind_eq_ok.mpr ⟨x, isX, bind_eq_ok.mpr ⟨y, isY, rfl⟩⟩⟩⟩⟩⟩⟩

/-- What a copy has of its node and what it has anew. -/
theorem copyOf_ok {offset : Value α} (plain : s.IsPlain) (isPlain : n.unchecked = [])
    (copied : s.copyOf n id offset depth = .ok m) : m.id = id ∧ m.parent = n.parent ∧ m.z = s.nextZ n.parent ∧
      m.unchecked = [] ∧ m.anchorX = n.anchorX ∧ m.anchorY = n.anchorY := by
  obtain ⟨-, _, _, _, _, -, -, -, -, rfl⟩ := (copyOf_iff plain isPlain).mp copied
  refine ⟨rfl, rfl, rfl, ?_, rfl, rfl⟩
  simp [Node.setX, Node.setY, Node.setZ, Node.checked, Unchecked.without, isPlain]

/-- A copy of a node can be added beside it. -/
theorem copyOf_addable {offset : Value α} (forest : s.IsForest) (plain : s.IsPlain)
    (found : s.find? other = some n) (notRoot : id ≠ root) (copied : s.copyOf n id offset depth = .ok m) :
    s.Addable m ∧ m.id = id ∧ m.anchorX = n.anchorX ∧ m.anchorY = n.anchorY := by
  have isNode := mem_of_find? found
  obtain ⟨sameId, sameParent, isNext, isPlain, anchorX, anchorY⟩ := copyOf_ok plain (plain n isNode) copied
  exact ⟨⟨sameId ▸ notRoot, sameParent ▸ forest.contained n isNode, sameParent ▸ isNext, isPlain⟩, sameId,
    anchorX, anchorY⟩

/-- A node can be copied where its extensions can and its place and the offset can be added. -/
theorem exists_copyOf {offset : Value α} {a x y : α} (plain : s.IsPlain) (isPlain : n.unchecked = [])
    (copyable : n.IsCopyableWhole depth) (isOffset : offset.asOperand = .ok a) (isX : Arith.add n.x a = .ok x)
    (isY : Arith.add n.y a = .ok y) (id : Text) : ∃ m, s.copyOf n id offset depth = .ok m := by
  obtain ⟨name, isName⟩ := Node.calledText_plain isPlain
  exact ⟨_, (copyOf_iff plain isPlain).mpr ⟨copyable, name, a, x, y, isName, isOffset, isX, isY, rfl⟩⟩

/-- A node that cannot be copied as a whole has no copy. -/
theorem copyOf_tooDeep {offset : Value α} (high : ¬n.IsCopyableWhole depth) (id : Text) :
    s.copyOf n id offset depth = .error .tooDeep := by
  rw [copyOf, Node.needCopy_eq, Value.roomFor, if_neg high]
  rfl

end LayoutDesigner.Store
