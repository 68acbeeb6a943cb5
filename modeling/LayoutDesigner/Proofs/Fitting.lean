import LayoutDesigner.Proofs.Gesture
import LayoutDesigner.Proofs.Population
import LayoutDesigner.Proofs.Property

/-!
# Nodes that fit the boxes of their parents

What it takes that a node fits the box of its parent may be one thing or another: `Fitting` says which
nodes fit which boxes, and `Fitting.ClampedBy` that clamping makes nodes fit. Whatever it is, clamping a
subtree makes every node of it fit. Every edit clamps what is within the node that it changes and leaves
alone what is beside it, so every edit keeps a store fitted.
-/

namespace LayoutDesigner

variable {α : Type}

/-- Where a node is and how large it is: its parent, and of both axes the anchor, the side and the
place. -/
structure Placing (α : Type) where
  parent : Text
  anchor : α × α
  side : α × α
  place : α × α

namespace Node

/-- The placing of a node. -/
def placing (n : Node α) : Placing α := ⟨n.parent, (n.anchorX, n.anchorY), (n.w, n.h), (n.x, n.y)⟩

/-- The same node by its id, and where `stays` holds of the id also at the same placing. -/
structure Steady (stays : Text → Prop) (n m : Node α) : Prop where
  id : m.id = n.id
  plain : n.unchecked = [] → m.unchecked = []
  placing : stays n.id → m.placing = n.placing

namespace Steady

variable {stays : Text → Prop}

instance : IsPreorder (Node α) (Steady stays) where
  refl _ := ⟨rfl, fun plain => plain, fun _ => rfl⟩
  trans _ _ _ first second := {
    id := second.id.trans first.id
    plain := fun plain => second.plain (first.plain plain)
    placing := fun holds => (second.placing (first.id ▸ holds)).trans (first.placing holds) }

/-- Another layer leaves a node where it is. -/
theorem setZ (n : Node α) (z : Int) : Steady stays n (n.setZ z) :=
  ⟨rfl, fun plain => without_plain plain .zIndex, fun _ => rfl⟩

end Steady

end Node

/-- Which nodes fit a box of given sides, which boxes can hold a node at all, and which of these the
surface may be. A node that fits is such a box for its children. -/
structure Fitting (α : Type) where
  Surface : Value α × Value α → Prop
  Roomy : Value α × Value α → Prop
  Fits : Node α → Value α × Value α → Prop
  congr {n m : Node α} {room : Value α × Value α} : m.placing = n.placing → Fits n room → Fits m room
  surface {room : Value α × Value α} : Surface room → Roomy room
  roomy {n : Node α} {room : Value α × Value α} : Fits n room → Roomy (.num n.w, .num n.h)

variable [Arith α]

/-- Clamping with a least side makes every node fit. -/
def Fitting.ClampedBy (fit : Fitting α) (least : Value α) : Prop :=
  ∀ ⦃n : Node α⦄ ⦃room : Value α × Value α⦄, n.unchecked = [] → fit.Roomy room →
    (Node.clampIn room.1 room.2 least).Ends n (fun _ m => fit.Fits m room) fun _ _ => True

namespace Store

/-- The nodes for which `stays` holds have kept their placings. -/
def Steady (stays : Text → Prop) (s t : Store α) : Prop := Pointwise (Node.Steady stays) s t

/-- Every node fits the box of its parent, and the surface is one that can hold a node. -/
structure IsFitted (fit : Fitting α) (s : Store α) : Prop where
  surface : fit.Surface (s.canvasW, s.canvasH)
  nodes : ∀ n ∈ s.nodes, fit.Fits n (s.parentSize n.parent)

variable {fit : Fitting α} {s t : Store α} {id other parent : Text} {n m : Node α} {stays : Text → Prop}

/-- The room of a parent goes by this node alone, and that of the root by the surface. -/
theorem parentSize_congr (same : parent ≠ root → t.find? parent = s.find? parent)
    (width : t.canvasW = s.canvasW) (height : t.canvasH = s.canvasH) :
    t.parentSize parent = s.parentSize parent := by
  by_cases isRoot : parent = root
  · simp only [parentSize, isRoot, if_true, width, height]
  · simp only [parentSize, same isRoot, width, height]

/-- What has no node has the surface for its room. -/
theorem parentSize_eq_canvas (missing : parent = root ∨ s.find? parent = none) :
    s.parentSize parent = (s.canvasW, s.canvasH) := by
  rcases missing with rfl | missing
  · simp [parentSize]
  · simp [parentSize, missing]

/-- The room of a plain node is its own size. -/
theorem parentSize_of_find? (notRoot : parent ≠ root) (found : s.find? parent = some n)
    (plain : n.unchecked = []) : s.parentSize parent = (.num n.w, .num n.h) := by
  simp [parentSize, notRoot, found, Node.written, plain, Unchecked.value?]

/-- Every box of a store can hold a node where the surface can and every node fits some box. -/
theorem roomy_parentSize (plain : s.IsPlain) (roomy : fit.Roomy (s.canvasW, s.canvasH))
    (nodes : ∀ n, s.find? parent = some n → ∃ room, fit.Fits n room) : fit.Roomy (s.parentSize parent) := by
  by_cases isRoot : parent = root
  · rwa [parentSize_eq_canvas (.inl isRoot)]
  · cases found : s.find? parent with
    | none => rwa [parentSize_eq_canvas (.inr found)]
    | some p =>
        obtain ⟨_, fits⟩ := nodes p found
        rw [parentSize_of_find? isRoot found (plain p (mem_of_find? found))]
        exact fit.roomy fits

/-- Every parent in a fitted store has enough room. -/
theorem IsFitted.roomy_parentSize (fitted : s.IsFitted fit) (plain : s.IsPlain) (parent : Text) :
    fit.Roomy (s.parentSize parent) :=
  Store.roomy_parentSize plain (fit.surface fitted.surface) fun n found => ⟨_, fitted.nodes n (mem_of_find? found)⟩

namespace Steady

instance : IsPreorder (Store α) (Steady stays) where
  refl s := Pointwise.refl (fun n => refl_of (Node.Steady stays) n) s
  trans _ _ _ := Pointwise.trans fun first second => trans_of (Node.Steady stays) first second

omit [Arith α] in
/-- Nodes that stay in their places are still plain. -/
theorem isPlain (steady : Steady stays s t) (plain : s.IsPlain) : t.IsPlain :=
  plain.pointwise steady fun _ _ step => step.plain

omit [Arith α] in
/-- Numbering layers leaves all nodes where they are. -/
theorem numberBy (s : Store α) (order : List Text) : Steady stays s (s.numberBy order) := by
  rw [numberBy_eq_mapNodes]
  refine Pointwise.mapNodes (fun n => ?_) s
  split
  · exact .setZ n _
  · exact refl_of (Node.Steady stays) n

/-- Renumbering the layers under a parent leaves all nodes where they are. -/
theorem normalizeZ (s : Store α) (parent : Text) : Steady stays s (s.normalizeZ parent) := numberBy s _

omit [Arith α] in
/-- A change of one node leaves the others where they are. -/
theorem modifyNode {f : Node α → Node α} (changed : ∀ n, n.id = id → Node.Steady stays n (f n)) :
    Steady stays s (s.modifyNode id f) := by
  rw [modifyNode_eq_mapNodes]
  refine Pointwise.mapNodes (fun n => ?_) s
  split
  · next here => exact changed n here
  · exact refl_of (Node.Steady stays) n

omit [Arith α] in
/-- Putting a node back that stays where it is leaves all nodes where they are. -/
theorem put (found : s.find? m.id = some n) (step : Node.Steady stays n m) : Steady stays s (s.put m) :=
  Pointwise.put (fun n => refl_of (Node.Steady stays) n) found step

/-- A box for which the placing of its node stays keeps its sides. -/
theorem parentSize (steady : Steady stays s t) (plain : s.IsPlain) (parent : Text)
    (here : parent ≠ root → stays parent) : t.parentSize parent = s.parentSize parent := by
  have canvas : (t.canvasW, t.canvasH) = (s.canvasW, s.canvasH) := by rw [steady.width, steady.height]
  by_cases isRoot : parent = root
  · rw [parentSize_eq_canvas (.inl isRoot), parentSize_eq_canvas (.inl isRoot), canvas]
  · have related := steady.find? (fun _ _ step => step.id) parent
    cases found : s.find? parent <;> cases found' : t.find? parent <;> rw [found, found'] at related
    · rw [parentSize_eq_canvas (.inr found), parentSize_eq_canvas (.inr found'), canvas]
    · cases related
    · cases related
    · next p q =>
        cases related with
        | some step =>
            have same := congrArg Placing.side (step.placing ((id_of_find? found).symm ▸ here isRoot))
            have isPlain := plain p (mem_of_find? found)
            obtain ⟨sameW, sameH⟩ := Prod.mk.inj same
            rw [parentSize_of_find? isRoot found isPlain, parentSize_of_find? isRoot found' (step.plain isPlain),
              sameW, sameH]

/-- What stays where it is, in a box that stays, fits it as before. -/
theorem fits (steady : Steady stays s t) (plain : s.IsPlain) (fitted : s.IsFitted fit) (member : m ∈ t.nodes)
    (here : stays m.id) (above : m.parent ≠ root → stays m.parent) :
    fit.Fits m (t.parentSize m.parent) := by
  obtain ⟨n, isNode, step⟩ := steady.exists_left member
  have same := step.placing (step.id ▸ here)
  have sameParent : m.parent = n.parent := congrArg Placing.parent same
  rw [steady.parentSize plain _ above, sameParent]
  exact fit.congr same (fitted.nodes n isNode)

/-- Where all placings stay, a store stays fitted. -/
theorem isFitted (steady : Steady (fun _ => True) s t) (plain : s.IsPlain) (fitted : s.IsFitted fit) :
    t.IsFitted fit where
  surface := by
    rw [steady.width, steady.height]
    exact fitted.surface
  nodes _ member := steady.fits plain fitted member trivial fun _ => trivial

end Steady

/-- The listed nodes fit the boxes of their parents; the others are as they were. -/
structure FittedSoFar (fit : Fitting α) (s t : Store α) (done : List Text) : Prop where
  fits : ∀ n ∈ t.nodes, n.id ∈ done → fit.Fits n (t.parentSize n.parent)
  rest : ∀ id, id ∉ done → t.find? id = s.find? id

variable {least : Value α} {done rest : List Text} {base : Text}

/-- The box of the next node of a sweep can hold it: the node's parent was clamped before, or is what
the sweep starts below. -/
theorem FittedSoFar.roomy (soFar : FittedSoFar fit s t done) (forest : s.IsForest) (plain : s.IsPlain)
    (roomy : fit.Roomy (s.canvasW, s.canvasH)) (sweep : Sweep s base done (id :: rest))
    (reshaped : Reshaped s t) (starts : ∀ p, s.find? base = some p → ∃ room, fit.Fits p room)
    (link : s.parent? id = some parent) : fit.Roomy (t.parentSize parent) := by
  refine roomy_parentSize (reshaped.isPlain plain) (by rwa [reshaped.width, reshaped.height]) fun p found => ?_
  obtain ⟨other, link', known⟩ := sweep.linked id (List.mem_append_right _ List.mem_cons_self)
  rw [link, Option.some_inj] at link'
  subst link'
  rcases known with rfl | isDone
  · refine starts p ?_
    rwa [← soFar.rest parent fun isDone => forest.not_leadsUp_self
      (sweep.below parent (List.mem_append_left _ isDone))]
  · exact ⟨_, soFar.fits p (mem_of_find? found) (id_of_find? found ▸ isDone)⟩

/-- One more node is made to fit. No node that was clamped before is below it, so their boxes stay. -/
theorem fittedSoFar_clampNode (clamped : fit.ClampedBy least) (forest : s.IsForest) (plain : s.IsPlain)
    (roomy : fit.Roomy (s.canvasW, s.canvasH)) (sweep : Sweep s base done (id :: rest))
    (reshaped : Reshaped s t) (starts : ∀ p, s.find? base = some p → ∃ room, fit.Fits p room)
    (soFar : FittedSoFar fit s t done) :
    (clampNode id least).Ends t (fun _ u => FittedSoFar fit s u (done ++ [id])) fun _ _ => True := by
  obtain ⟨n, found⟩ := exists_find? (reshaped.ids ▸ sweep.next_leads.mem_ids)
  obtain rfl := id_of_find? found
  have sameParent : t.parent? = s.parent? := parent?_congr reshaped.links
  have link : s.parent? n.id = some n.parent := by rw [← sameParent, parent?_of_find? found]
  have isPlain := reshaped.isPlain plain n (mem_of_find? found)
  have holds := soFar.roomy forest plain roomy sweep reshaped starts link
  rw [ends_clampNode_of_found found]
  refine ((clamped isPlain holds).and (Node.keeps_clampIn n)).mono ?_ fun _ _ _ => trivial
  rintro _ m ⟨fits, step⟩
  have find? : ∀ other, (t.put m).find? other = if other = n.id then some m else t.find? other :=
    step.id ▸ find?_put (m := m) (step.id.symm ▸ found)
  have boxes : ∀ {parent}, parent ≠ n.id → (t.put m).parentSize parent = t.parentSize parent :=
    fun differs => parentSize_congr (fun _ => by rw [find?, if_neg differs]) rfl rfl
  have distinct : (t.put m).ids.Nodup := by
    rw [(Reshaped.put found step).ids, reshaped.ids]
    exact forest.distinct
  refine ⟨fun k member isDone => ?_, fun other notDone => ?_⟩
  · have isFound := find?_of_mem distinct member
    rw [find?] at isFound
    split at isFound
    · obtain rfl := Option.some.inj isFound
      rw [step.parent, boxes (forest.isRooted.parent_ne link)]
      exact fits
    · next differs =>
        replace isDone : k.id ∈ done := by simpa [differs] using isDone
        have isNode := mem_of_find? isFound
        have above : k.parent ≠ n.id := by
          intro isChild
          have link' : s.parent? k.id = some n.id := by rw [← sameParent, parent?_of_find? isFound, isChild]
          exact sweep.fresh (sweep.next_ne forest.isRooted) link' (List.mem_append_left _ isDone)
        rw [boxes above]
        exact soFar.fits k isNode isDone
  · have differs : other ≠ n.id := fun same => notDone (by simp [same])
    rw [find?, if_neg differs]
    exact soFar.rest other fun isDone => notDone (List.mem_append_left _ isDone)

/-- Clamping a subtree makes a store fitted in which all that is beside the subtree fits. -/
theorem fitted_clampSubtree (clamped : fit.ClampedBy least) (forest : s.IsForest) (plain : s.IsPlain)
    (surface : fit.Surface (s.canvasW, s.canvasH)) (known : id = root ∨ id ∈ s.ids)
    (beside : ∀ n ∈ s.nodes, ¬s.IsWithin n.id id → fit.Fits n (s.parentSize n.parent)) :
    (clampSubtree id least).Ends s (fun _ t => t.IsFitted fit ∧ Reshaped s t) fun _ _ => True := by
  have start : FittedSoFar fit s s [] := ⟨by simp, fun _ _ => rfl⟩
  have swept : (clampSubtree id least).Ends s
      (fun _ t => ∃ all, all.Nodup ∧ (∀ other, other ∈ all ↔ other ∈ s.ids ∧ s.IsWithin other id) ∧
        FittedSoFar fit s t all) fun _ _ => True := by
    refine ends_clampSubtree_of (fun done t => FittedSoFar fit s t done) forest.isRooted plain known start
      fun apart sweep reshaped soFar => ?_
    -- What the sweep starts below is the root, or the parent of the node, which is beside it.
    refine fittedSoFar_clampNode clamped forest plain (fit.surface surface) sweep reshaped (fun p found => ?_) soFar
    rcases apart with ⟨-, rfl⟩ | ⟨-, link⟩
    · exact absurd (mem_ids_of_find? found) forest.unreserved
    · refine ⟨_, beside p (mem_of_find? found) fun within => ?_⟩
      rw [id_of_find? found] at within
      exact forest.isRooted.not_isWithin_parent link within
  refine (swept.and (keeps_clampSubtree s)).mono ?_ fun _ _ _ => trivial
  rintro _ t ⟨⟨all, -, met, soFar⟩, reshaped⟩
  refine ⟨⟨by rwa [reshaped.width, reshaped.height], fun m member => ?_⟩, reshaped⟩
  by_cases within : s.IsWithin m.id id
  · exact soFar.fits m member ((met m.id).mpr ⟨reshaped.ids ▸ id_mem_ids member, within⟩)
  · have stays : ∀ {other}, ¬s.IsWithin other id → t.find? other = s.find? other := fun apart =>
      soFar.rest _ fun isMet => apart ((met _).mp isMet).2
    have distinct : t.ids.Nodup := reshaped.ids ▸ forest.distinct
    have isNode : m ∈ s.nodes := mem_of_find? (stays within ▸ find?_of_mem distinct member)
    have link := parent?_of_mem forest.distinct isNode
    rw [parentSize_congr (fun _ => stays fun above => within (.of_parent? link above)) reshaped.width
      reshaped.height]
    exact beside m isNode within

/-- Where at most the placing of one node has changed, clamping the node makes a store fitted again. -/
theorem IsFitted.reclamped (fitted : s.IsFitted fit) (clamped : fit.ClampedBy least) (plain : s.IsPlain)
    (steady : Steady (· ≠ id) s t) (forest : t.IsForest) (isNode : id ∈ t.ids) :
    (clampSubtree id least).Ends t (fun _ u => u.IsFitted fit ∧ Reshaped t u) fun _ _ => True := by
  refine fitted_clampSubtree clamped forest (steady.isPlain plain) ?_ (.inr isNode) fun m member apart => ?_
  · rw [steady.width, steady.height]
    exact fitted.surface
  · refine steady.fits plain fitted member (fun here => apart (here ▸ .refl _)) fun _ isChild => ?_
    exact apart (.of_parent? (parent?_of_mem forest.distinct member) (isChild ▸ .refl _))

/-- A node that fits its parent's room is added to a fitted store. -/
theorem IsFitted.add (fitted : s.IsFitted fit) (forest : s.IsForest) (under : n.parent = root ∨ n.parent ∈ s.ids)
    (fits : fit.Fits n (s.parentSize n.parent)) : IsFitted fit { s with nodes := s.nodes ++ [n] } := by
  have same : ∀ {parent}, parent = root ∨ parent ∈ s.ids →
      parentSize { s with nodes := s.nodes ++ [n] } parent = s.parentSize parent := by
    intro parent known
    refine parentSize_congr (fun notRoot => ?_) rfl rfl
    obtain ⟨p, found⟩ := exists_find? (known.resolve_left notRoot)
    rw [found]
    simp only [find?] at found ⊢
    rw [List.find?_append, found, Option.some_or]
  refine ⟨fitted.surface, fun m member => ?_⟩
  rcases List.mem_append.mp member with isOld | isNew
  · exact same (forest.parent_known isOld) ▸ fitted.nodes m isOld
  · rw [List.mem_singleton.mp isNew, same under]
    exact fits

/-- What is removed takes along all children, so of what is left every parent is left. -/
theorem IsFitted.removeAll {removed : List Text} (fitted : s.IsFitted fit) (forest : s.IsForest)
    (closed : ∀ n ∈ s.nodes, n.parent ∈ removed → n.id ∈ removed) : (s.removeAll removed).IsFitted fit := by
  refine ⟨fitted.surface, fun m member => ?_⟩
  obtain ⟨isNode, stays⟩ := List.mem_filter.mp member
  have same : (s.removeAll removed).parentSize m.parent = s.parentSize m.parent := by
    refine parentSize_congr (fun notRoot => ?_) rfl rfl
    obtain ⟨p, isParent, sameId, -⟩ := (forest.contained m isNode).resolve_left notRoot
    have isKept : p ∈ (s.removeAll removed).nodes := by
      refine List.mem_filter.mpr ⟨isParent, ?_⟩
      have keeps : p.id ∉ removed := fun gone => by simp [closed m isNode (sameId ▸ gone)] at stays
      simpa using keeps
    have distinct : (s.removeAll removed).ids.Nodup := forest.distinct.sublist (List.filter_sublist.map _)
    rw [← sameId, find?_of_mem forest.distinct isParent]
    exact find?_of_mem distinct isKept
  exact same ▸ fitted.nodes m isNode

section

variable (clamped : fit.ClampedBy (.int leastSide))

include clamped

/-- A placed node is made to fit the box of its parent. -/
theorem fitted_place (fitted : s.IsFitted fit) (forest : s.IsForest) (isPlain : s.IsPlain)
    (plain : n.unchecked = []) (under : n.parent = root ∨ n.parent ∈ s.ids) :
    (Store.place n).Ends s (fun _ t => t.IsFitted fit) fun _ t => t = s := by
  refine ends_place_of plain (fun _ => rfl) fun m kept _ => ?_
  have sameParent := (reshaped_of_clampLoose kept).parent
  have fits := (clamped plain (fitted.roomy_parentSize isPlain n.parent)).returned (clampLoose_ok kept)
  rw [← sameParent] at fits under
  exact fitted.add forest under fits

/-- A new node is fitted. -/
theorem fitted_createNode {kind : Value α} (fitted : s.IsFitted fit) (forest : s.IsForest)
    (isPlain : s.IsPlain) (under : parent = root ∨ parent ∈ s.ids) :
    (createNode kind id parent).Ends s (fun _ t => t.IsFitted fit) fun _ t => t = s :=
  ends_createNode_of isPlain (fun _ => rfl) fun _ _ created =>
    fitted_place clamped fitted forest isPlain created.plain (created.parent.symm ▸ under)

omit clamped in
/-- Deleting a subtree leaves the rest fitted. -/
theorem fitted_deleteSubtree (fitted : s.IsFitted fit) (forest : s.IsForest) (isPlain : s.IsPlain) :
    (deleteSubtree id).Ends s (fun _ t => t.IsFitted fit) fun _ _ => False := by
  refine ends_deleteSubtree isPlain (fun _ => fitted) fun n found => ?_
  have removed : ∀ {other}, other ∈ s.subtreeIds id ↔ other = id ∨ s.LeadsUp other id :=
    mem_subtreeIds forest.distinct (mem_ids_of_find? found)
  refine (Steady.normalizeZ _ n.parent).isFitted (All.removeAll isPlain _)
    (fitted.removeAll forest fun m member isChild => removed.mpr (.inr ?_))
  exact (leadsUp_of_parent? (parent?_of_mem forest.distinct member)).mpr (removed.mp isChild)

omit clamped in
/-- Changing places with a neighbour leaves all nodes fitted. -/
theorem fitted_swapWithNeighbor (fitted : s.IsFitted fit) (isPlain : s.IsPlain) (up : Bool) :
    (swapWithNeighbor id up).Ends s (fun _ t => t.IsFitted fit) fun _ _ => False := by
  refine ends_swapWithNeighbor isPlain (fun _ => fitted) fun n m _ _ => ?_
  have first : Steady (fun _ => True) s (s.modifyNode id (·.setZ m.z)) :=
    .modifyNode fun _ _ => .setZ _ _
  have second : Steady (fun _ => True) (s.modifyNode id (·.setZ m.z))
      ((s.modifyNode id (·.setZ m.z)).modifyNode m.id (·.setZ n.z)) := .modifyNode fun _ _ => .setZ _ _
  have both := trans_of (Steady fun _ => True) first second
  exact (trans_of (Steady fun _ => True) both (.normalizeZ _ n.parent)).isFitted isPlain fitted

/-- A node that moves is clamped with all that is below it; what is beside it stays where it is. -/
theorem fitted_reparent (fitted : s.IsFitted fit) (forest : s.IsForest) (isPlain : s.IsPlain) :
    (reparent id parent).Ends s (fun _ t => t.IsFitted fit ∧ t.IsPlain ∧ t.ids = s.ids) fun _ _ => True := by
  refine ends_reparent forest.distinct isPlain (fun _ => ⟨fitted, isPlain, rfl⟩) fun n found can x y z => ?_
  have steady : Steady (· ≠ id) s (s.modifyNode id (·.movedTo parent x y z)) :=
    .modifyNode fun n here => {
      id := n.id_movedTo parent x y z
      plain := fun plain => Node.plain_movedTo plain parent x y z
      placing := fun differs => absurd here differs }
  have forest' := (forest.setParent (canReparent_admits forest can)).congr (links_movedTo (x := x) (y := y) (z := z))
  have sameIds : (s.modifyNode id (·.movedTo parent x y z)).ids = s.ids := by
    rw [ids_congr links_movedTo, ids_setParent]
  have isNode : id ∈ (s.modifyNode id (·.movedTo parent x y z)).ids := sameIds ▸ mem_ids_of_find? found
  refine (fitted.reclamped clamped isPlain steady forest' isNode).mono ?_ fun _ _ _ => trivial
  rintro _ t ⟨fitted', reshaped⟩
  have numbered : Steady (fun _ => True) t ((t.normalizeZ parent).normalizeZ n.parent) :=
    trans_of (Steady fun _ => True) (.normalizeZ t parent) (.normalizeZ _ n.parent)
  have plain := reshaped.isPlain (steady.isPlain isPlain)
  refine ⟨numbered.isFitted plain fitted', numbered.isPlain plain, ?_⟩
  rw [ids_normalizeZ, ids_normalizeZ, reshaped.ids, sameIds]

/-- Moving a node beside another one leaves all nodes fitted. -/
theorem fitted_reorderRelative (fitted : s.IsFitted fit) (forest : s.IsForest) (isPlain : s.IsPlain)
    (position : DropPosition) :
    (reorderRelative id other position).Ends s (fun _ t => t.IsFitted fit) fun _ _ => True := by
  refine (ends_reorderRelative (fun t => t.IsFitted fit ∧ t.IsPlain ∧ t.ids = s.ids)
    (fun holds => ⟨holds.2.1, holds.2.2 ▸ forest.distinct⟩) ⟨fitted, isPlain, rfl⟩
    (fitted_reparent clamped fitted forest isPlain) (fun {t order} _ holds _ => ?_) position).mono
      (fun _ _ holds => holds.1) fun _ _ _ => trivial
  have numbered : Steady (fun _ => True) t (t.numberBy order) := .numberBy t order
  exact ⟨numbered.isFitted holds.2.1 holds.1, numbered.isPlain holds.2.1, (ids_congr links_numberBy).trans holds.2.2⟩

/-- Writing a property leaves all nodes fitted. -/
theorem fitted_applyField {name : Text} {v : Value α} (fitted : s.IsFitted fit) (forest : s.IsForest)
    (isPlain : s.IsPlain) :
    (applyField id name v).Ends s (fun _ t => t.IsFitted fit) fun _ _ => True := by
  refine ends_applyField isPlain (fun _ => trivial) fitted fun n f m found written => ?_
  obtain rfl := id_of_find? found
  have step := Node.adjusted_setField written
  have adjusted := Adjusted.put found step
  have forest' := forest.congr adjusted.links
  have isNode : n.id ∈ (s.put m).ids := ids_congr adjusted.links ▸ mem_ids_of_find? found
  have steady : Steady (· ≠ n.id) s (s.put m) :=
    .put (step.id_eq.symm ▸ found) ⟨step.id_eq, step.plain, fun differs => absurd rfl differs⟩
  split
  · have steady' := trans_of (Steady (· ≠ n.id)) steady (.normalizeZ _ n.parent)
    exact (fitted.reclamped clamped isPlain steady' (forest'.congr links_normalizeZ)
      (ids_normalizeZ (s := s.put m) ▸ isNode)).mono (fun _ _ both => both.1) fun _ _ _ => trivial
  · exact (fitted.reclamped clamped isPlain steady forest' isNode).mono (fun _ _ both => both.1) fun _ _ _ => trivial

end

/-- A repair makes every node fit the box of its parent, on a surface that can hold a node. -/
theorem fitted_repair (clamped : fit.ClampedBy least) (isPlain : s.IsPlain)
    (surface : fit.Surface (s.canvasW, s.canvasH)) (distinct : s.ids.Nodup) (unreserved : root ∉ s.ids) :
    (repair least).Ends s (fun _ t => t.IsFitted fit ∧ t.canvasW = s.canvasW ∧ t.canvasH = s.canvasH)
      fun _ _ => True := by
  have lifts : (liftFromLeaves s.cutDangling.2.cutCycles.2.ids).Ends s.cutDangling.2.cutCycles.2
      (fun _ _ => True) fun _ _ => True := Edit.ends_any fun _ _ => trivial
  refine ends_repair_of distinct unreserved lifts fun _ t passes _ => ?_
  have plain := passes.cut.isPlain isPlain
  refine (fitted_clampSubtree clamped passes.forest plain
    (by rwa [passes.cut.width, passes.cut.height]) (.inl rfl) fun n member apart => ?_).mono ?_ fun _ _ _ => trivial
  · exact absurd (.inr (passes.forest.leadsUp_root (id_mem_ids member))) apart
  · rintro _ u ⟨fitted, reshaped⟩
    have sides : u.canvasW = s.canvasW ∧ u.canvasH = s.canvasH :=
      ⟨reshaped.width.trans passes.cut.width, reshaped.height.trans passes.cut.height⟩
    refine (normalizeAll_induct (fun v => (v.IsFitted fit ∧ v.canvasW = s.canvasW ∧ v.canvasH = s.canvasH) ∧ v.IsPlain)
      (fun {v} parent holds => ?_) ⟨⟨fitted, sides⟩, reshaped.isPlain plain⟩).1
    have steady : Steady (fun _ => True) v (v.normalizeZ parent) := .normalizeZ v parent
    exact ⟨⟨steady.isFitted holds.2 holds.1.1, holds.1.2⟩, steady.isPlain holds.2⟩

end Store

end LayoutDesigner
