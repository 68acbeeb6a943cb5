import LayoutDesigner.Proofs.MeasuredStore

/-!
# Edits of the hierarchy keep it orderly

A store is orderly where its nodes are a forest of containers and the layers of every parent are
dense. Moving a node, exchanging it with its neighbour and placing it beside another one keep a
store orderly; none of them fails where measures fit.
-/

namespace LayoutDesigner

open Arith (Lawful)

variable {α : Type}

/-- The same link and the same layer. -/
structure Node.Alike (n m : Node α) : Prop where
  link : m.link = n.link
  z : m.z = n.z
  plain : n.unchecked = [] → m.unchecked = []

namespace Node.Alike

variable {n m : Node α}

instance : IsPreorder (Node α) Alike where
  refl _ := ⟨rfl, rfl, fun plain => plain⟩
  trans _ _ _ first second := {
    link := second.link.trans first.link
    z := second.z.trans first.z
    plain := fun plain => second.plain (first.plain plain) }

/-- A change of place and sides alone leaves nodes alike. -/
theorem of_reshaped (reshaped : Reshaped n m) : Alike n m :=
  ⟨reshaped.link, reshaped.z, reshaped.plain⟩

end Node.Alike

/-- The same link, and but for one node the same layer. -/
structure Node.Adjusted (id : Text) (n m : Node α) : Prop where
  link : m.link = n.link
  z : n.id ≠ id → m.z = n.z
  plain : n.unchecked = [] → m.unchecked = []

namespace Node.Adjusted

variable {id : Text} {n m : Node α}

instance : IsPreorder (Node α) (Adjusted id) where
  refl _ := ⟨rfl, fun _ => rfl, fun plain => plain⟩
  trans _ _ _ first second := {
    link := second.link.trans first.link
    z := fun other => by
      have sameId := congrArg Link.id first.link
      exact (second.z (fun same => other (sameId.symm.trans same))).trans (first.z other)
    plain := fun plain => second.plain (first.plain plain) }

/-- An adjusted node has its id. -/
theorem id_eq (adjusted : Adjusted id n m) : m.id = n.id := congrArg Link.id adjusted.link

/-- An adjusted node has its parent. -/
theorem parent_eq (adjusted : Adjusted id n m) : m.parent = n.parent :=
  congrArg Link.parent adjusted.link

/-- Nodes that are alike are adjusted. -/
theorem of_alike (alike : Alike n m) : Adjusted id n m := ⟨alike.link, fun _ => alike.z, alike.plain⟩

/-- A change of place and sides alone adjusts a node. -/
theorem of_reshaped (reshaped : Reshaped n m) : Adjusted id n m := of_alike (.of_reshaped reshaped)

/-- A change of the layer of the one node adjusts it. -/
theorem setZ (here : n.id = id) (z : Int) : Adjusted id n (n.setZ z) :=
  ⟨rfl, fun other => absurd here other, fun plain => without_plain plain .zIndex⟩

end Node.Adjusted

/-- The node under another parent, at another place and on another layer. -/
def Node.movedTo (n : Node α) (parent : Text) (x y : α) (z : Int) : Node α :=
  (((n.setParent parent).setX x).setY y).setZ z

/-- A node that was moved has its id. -/
theorem Node.id_movedTo (n : Node α) (parent : Text) (x y : α) (z : Int) : (n.movedTo parent x y z).id = n.id := by
  have onLayer : ∀ k : Node α, (k.setZ z).id = k.id := fun _ => rfl
  have underParent : (n.setParent parent).id = n.id := rfl
  rw [movedTo, onLayer, (Reshaped.setY _ y).id, (Reshaped.setX _ x).id, underParent]

/-- A node that was moved has nothing unchecked if it had nothing before. -/
theorem Node.plain_movedTo {n : Node α} (plain : n.unchecked = []) (parent : Text) (x y : α) (z : Int) :
    (n.movedTo parent x y z).unchecked = [] := by
  have onLayer : ∀ k : Node α, k.unchecked = [] → (k.setZ z).unchecked = [] := fun _ plain =>
    without_plain plain _
  have underParent : (n.setParent parent).unchecked = [] := without_plain plain _
  exact onLayer _ ((Reshaped.setY _ y).plain ((Reshaped.setX _ x).plain underParent))

namespace Store

/-- A forest of containers in which the layers of every parent are dense. -/
structure IsOrderly (s : Store α) : Prop where
  forest : s.IsForest
  plain : s.IsPlain
  layered : ∀ parent, s.Layered parent

/-- Links and layers stay. -/
def Alike (s t : Store α) : Prop := Pointwise Node.Alike s t

/-- Links stay, and but for one node the layers do. -/
def Adjusted (id : Text) (s t : Store α) : Prop := Pointwise (Node.Adjusted id) s t

variable {s t u : Store α} {id other parent place : Text} {n m : Node α} {order : List Text}

namespace Alike

/-- A change of places and sides alone leaves stores alike. -/
theorem of_reshaped (reshaped : Reshaped s t) : Alike s t :=
  reshaped.mono fun _ _ => Node.Alike.of_reshaped

/-- Stores that are alike have the same links. -/
theorem links (alike : Alike s t) : t.links = s.links := alike.map_eq fun _ _ step => step.link

/-- Stores that are alike have the same ids. -/
theorem ids (alike : Alike s t) : t.ids = s.ids := ids_congr alike.links

/-- A change that leaves each node alike leaves the store alike. -/
theorem modifyNode {f : Node α → Node α} (changed : ∀ n, Node.Alike n (f n)) :
    Alike s (s.modifyNode id f) := by
  rw [modifyNode_eq_mapNodes]
  refine Pointwise.mapNodes (fun n => ?_) s
  split
  · exact changed n
  · exact refl_of Node.Alike n

/-- Putting a node back that is alike leaves the store alike. -/
theorem put (found : s.find? id = some n) (step : Node.Alike n m) : Alike s (s.put m) := by
  have sameId : m.id = id := (congrArg Link.id step.link).trans (id_of_find? found)
  exact Pointwise.put (fun n => refl_of Node.Alike n) (sameId ▸ found) step

/-- Of links and layers alone it follows that a store is orderly. -/
theorem orderly (alike : Alike s t) (orderly : s.IsOrderly) : t.IsOrderly where
  forest := orderly.forest.congr alike.links
  plain := orderly.plain.pointwise alike fun _ _ step => step.plain
  layered parent := (orderly.layered parent).congr
    (Pointwise.map_children alike (fun _ _ step => congrArg Link.parent step.link) fun _ _ _ step _ => step.z)

end Alike

namespace Adjusted

instance : IsPreorder (Store α) (Adjusted id) where
  refl s := Pointwise.refl (fun n => refl_of (Node.Adjusted id) n) s
  trans _ _ _ := Pointwise.trans fun first second => trans_of (Node.Adjusted id) first second

/-- An adjusted store has the same links. -/
theorem links (adjusted : Adjusted id s t) : t.links = s.links :=
  adjusted.map_eq fun _ _ step => step.link

/-- An adjusted store is plain if it was before. -/
theorem isPlain (adjusted : Adjusted id s t) (plain : s.IsPlain) : t.IsPlain :=
  plain.pointwise adjusted fun _ _ step => step.plain

/-- A change of places and sides alone adjusts a store. -/
theorem of_reshaped (reshaped : Reshaped s t) : Adjusted id s t :=
  reshaped.mono fun _ _ => Node.Adjusted.of_reshaped

/-- Putting a node back that is adjusted adjusts the store. -/
theorem put (found : s.find? id = some n) (step : Node.Adjusted id n m) : Adjusted id s (s.put m) :=
  Pointwise.put (fun n => refl_of (Node.Adjusted id) n)
    ((step.id_eq.trans (id_of_find? found)) ▸ found) step

/-- A change that adjusts the one node adjusts the store. -/
theorem modifyNode {f : Node α → Node α} (changed : ∀ n, n.id = id → Node.Adjusted id n (f n)) :
    Adjusted id s (s.modifyNode id f) := by
  rw [modifyNode_eq_mapNodes]
  refine Pointwise.mapNodes (fun n => ?_) s
  split
  · next here => exact changed n here
  · exact refl_of (Node.Adjusted id) n

/-- The children of other parents stay on their layers. -/
theorem layers (adjusted : Adjusted id s t) (elsewhere : ∀ n ∈ s.nodes, n.id = id → n.parent ≠ place) :
    (t.children place).map Node.z = (s.children place).map Node.z :=
  Pointwise.map_children adjusted (fun _ _ step => step.parent_eq) fun n isNode _ step isChild =>
    step.z fun here => elsewhere n isNode here isChild

end Adjusted

/-- Children of a parent that a node neither leaves nor comes to. -/
theorem children_setParent (leaves : ∀ n ∈ s.nodes, n.id = id → n.parent ≠ place)
    (comes : parent ≠ place) :
    (s.modifyNode id (·.setParent parent)).children place = s.children place := by
  simp only [children, modifyNode]
  generalize s.nodes = nodes at leaves
  induction nodes with
  | nil => rfl
  | cons n rest ih =>
      have restSame := ih fun k inRest => leaves k (List.mem_cons_of_mem _ inRest)
      rw [List.map_cons, List.filter_cons, List.filter_cons, restSame]
      by_cases here : n.id = id
      · have left := leaves n List.mem_cons_self here
        simp [here, left, comes, Node.setParent]
      · simp [here]

/-- Changing the parent and then the place and the layer is one move. -/
theorem modifyNode_movedTo (s : Store α) (id parent : Text) (x y : α) (z : Int) :
    (s.modifyNode id (·.setParent parent)).modifyNode id (fun n => ((n.setX x).setY y).setZ z) =
      s.modifyNode id (·.movedTo parent x y z) :=
  modifyNode_modifyNode (f := (·.setParent parent)) fun _ => rfl

/-- A move adjusts the store in which the parent was changed. -/
theorem adjusted_movedTo {x y : α} {z : Int} :
    Adjusted id (s.modifyNode id (·.setParent parent)) (s.modifyNode id (·.movedTo parent x y z)) := by
  have moved : Adjusted id (s.modifyNode id (·.setParent parent))
      ((s.modifyNode id (·.setParent parent)).modifyNode id fun n => ((n.setX x).setY y).setZ z) :=
    .modifyNode fun n here => trans_of (Node.Adjusted id)
      (trans_of (Node.Adjusted id) (.of_reshaped (.setX n x)) (.of_reshaped (.setY _ y)))
      (.setZ (n := (n.setX x).setY y) here z)
  exact (congrArg (Adjusted id _) (modifyNode_movedTo s id parent x y z)).mp moved

/-- Moving a node only makes it name its new parent. -/
theorem links_movedTo {x y : α} {z : Int} :
    (s.modifyNode id (·.movedTo parent x y z)).links = (s.modifyNode id (·.setParent parent)).links :=
  adjusted_movedTo.links

/-- What can be moved is a node. -/
theorem exists_find?_of_canReparent (can : s.canReparent id parent) : ∃ n, s.find? id = some n := by
  rw [canReparent] at can
  split at can
  · cases can
  · next n found => exact ⟨n, found⟩

/-- What can be put under a parent is admitted there. -/
theorem canReparent_admits (forest : IsForest s) (can : s.canReparent id parent) :
    s.Admits parent id := by
  rw [canReparent] at can
  split at can
  · cases can
  · split at can
    · cases can
    · next differs =>
        split at can
        · next isRoot => exact .inl isRoot
        · split at can
          · cases can
          · next p found =>
              rw [Bool.and_eq_true, Bool.not_eq_true', ← Bool.not_eq_true, forest.isBelow_iff] at can
              rw [not_or] at differs
              exact .inr ⟨⟨p, mem_of_find? found, id_of_find? found, can.1⟩, differs.2, can.2⟩

/-- A move is legal and real where another place than the present parent admits the node. -/
theorem canReparent_iff_admits (forest : s.IsForest) (found : s.find? id = some n) :
    s.canReparent id parent ↔ s.Admits parent id ∧ parent ≠ n.parent := by
  constructor
  · intro can
    refine ⟨canReparent_admits forest can, ?_⟩
    rintro rfl
    simp [canReparent, found] at can
  · rintro ⟨admits, elsewhere⟩
    rw [canReparent, found]
    rcases admits with rfl | ⟨⟨p, isParent, rfl, isContainer⟩, differs, apart⟩
    · have notRoot : root ≠ id := fun same => forest.unreserved (same ▸ mem_ids_of_find? found)
      simp [elsewhere.symm, notRoot]
    · have notRoot : p.id ≠ root := fun same => forest.unreserved (same ▸ id_mem_ids isParent)
      have below : s.isBelow p.id id = false := by
        rw [← Bool.not_eq_true, forest.isBelow_iff]
        exact apart
      simp [elsewhere.symm, differs, notRoot, find?_of_mem forest.distinct isParent, isContainer, below]

/-- The present parent admits the node. -/
theorem IsForest.admits_parent (forest : s.IsForest) (isNode : n ∈ s.nodes) : s.Admits n.parent n.id := by
  have link := parent?_of_mem forest.distinct isNode
  have outside : ¬s.IsWithin n.parent n.id := forest.isRooted.not_isWithin_parent link
  exact (forest.contained n isNode).imp_right fun contained => ⟨contained, not_or.mp outside⟩

/-- A node takes the layer of a plain one. -/
theorem takeLayer_plain {m : Node α} (plain : m.unchecked = []) : n.takeLayer m = n.setZ m.z := by
  simp [Node.takeLayer, plain, Unchecked.value?]

/-- Numbering all children of a parent in any order keeps a store orderly. -/
theorem isOrderly_numberBy (orderly : s.IsOrderly) (parent : Text)
    (all : order.Perm ((s.children parent).map Node.id)) : (s.numberBy order).IsOrderly where
  forest := orderly.forest.congr links_numberBy
  plain := orderly.plain.numberBy
  layered place := by
    by_cases same : place = parent
    · exact same ▸ layered_numberBy orderly.forest.distinct all
    · refine (orderly.layered place).congr ?_
      rw [children_numberBy_other orderly.forest.distinct (fun id => all.mem_iff.mp) same]

/-- Put an item directly before or after the first occurrence of another one. -/
def placeBeside (item target : Text) (before : Bool) : List Text → List Text
  | [] => []
  | id :: rest =>
    if id = target then if before then item :: id :: rest else id :: item :: rest
    else id :: placeBeside item target before rest

/-- Placing an item beside one that is listed adds it and nothing else. -/
theorem placeBeside_perm {item target : Text} {before : Bool} {ids : List Text} (listed : target ∈ ids) :
    (placeBeside item target before ids).Perm (item :: ids) := by
  induction ids with
  | nil => cases listed
  | cons id rest ih =>
      rw [placeBeside]
      split
      · split
        · exact .refl _
        · exact .swap item id rest
      · next other =>
          have inRest : target ∈ rest := (List.mem_cons.mp listed).resolve_left (Ne.symm other)
          exact ((ih inRest).cons id).trans (.swap item id rest)

/-- Placing an item beside one that is listed is inserting it at the place of that one, or at the next. -/
theorem insertIdx_idxOf {item target : Text} {ids : List Text} (listed : target ∈ ids) (before : Bool) :
    ids.insertIdx (ids.idxOf target + if before then 0 else 1) item = placeBeside item target before ids := by
  induction ids with
  | nil => cases listed
  | cons id rest ih =>
      rw [placeBeside]
      by_cases here : id = target
      · rw [if_pos here, here, List.idxOf_cons_self]
        cases before <;> rfl
      · have inRest : target ∈ rest := (List.mem_cons.mp listed).resolve_left (Ne.symm here)
        rw [if_neg here, List.idxOf_cons_ne _ here, ← ih inRest, Nat.succ_add, List.insertIdx_succ_cons]

/-- Without one of its items, a list has another one at its place, or one before where the item stood ahead. -/
theorem idxOf_erase {item target : Text} {ids : List Text} (differs : item ≠ target) (listed : item ∈ ids) :
    (ids.erase item).idxOf target = ids.idxOf target - if ids.idxOf item < ids.idxOf target then 1 else 0 := by
  induction ids with
  | nil => cases listed
  | cons id rest ih =>
      by_cases isItem : id = item
      · subst isItem
        rw [List.erase_cons_head, List.idxOf_cons_self, List.idxOf_cons_ne _ differs]
        simp
      · have inRest : item ∈ rest := (List.mem_cons.mp listed).resolve_left (Ne.symm isItem)
        rw [List.erase_cons_tail (by simpa using isItem), List.idxOf_cons_ne _ isItem]
        by_cases isTarget : id = target
        · rw [isTarget, List.idxOf_cons_self, List.idxOf_cons_self]
          simp
        · rw [List.idxOf_cons_ne _ isTarget, List.idxOf_cons_ne _ isTarget, ih inRest]
          split <;> split <;> omega

/-- **The index arithmetic places an id beside another one.** Taking an id out by its place and inserting it at
the place that the other one's gives, moved by one where that is behind and kept within the list, is placing it
directly before or after the other one among those that remain. -/
theorem moveBeside_eq {ids : List Text} {dragged target : Text} (distinct : ids.Nodup) (listed : dragged ∈ ids)
    (listed' : target ∈ ids) (differs : dragged ≠ target) (position : DropPosition) :
    moveBeside ids dragged target position =
      placeBeside dragged target (position = .above) (ids.filter (· ≠ dragged)) := by
  have remaining : ids.eraseIdx (ids.idxOf dragged) = ids.filter (· ≠ dragged) := by
    rw [List.eraseIdx_idxOf_eq_erase, distinct.erase_eq_filter]
    exact List.filter_congr fun id _ => by rw [Bool.eq_iff_iff]; simp
  have isOther : target ∈ ids.filter (· ≠ dragged) := by simpa using ⟨listed', differs.symm⟩
  have place : (ids.filter (· ≠ dragged)).idxOf target =
      ids.idxOf target - if ids.idxOf dragged < ids.idxOf target then 1 else 0 := by
    rw [← remaining, List.eraseIdx_idxOf_eq_erase, idxOf_erase differs listed]
  have bound : (ids.filter (· ≠ dragged)).idxOf target < (ids.filter (· ≠ dragged)).length :=
    List.idxOf_lt_length_iff.mpr isOther
  have apart : ids.idxOf dragged ≠ ids.idxOf target := fun same => differs ((List.idxOf_inj listed).mp same)
  rw [moveBeside, remaining, ← insertIdx_idxOf isOther]
  -- The place is within the list, so that keeping it there changes nothing.
  congr 1
  rw [place] at bound ⊢
  simp only [landingPlace, decide_eq_true_eq]
  split at bound <;> split <;> omega

section

variable [Arith α]

/-- Renumbering one parent's children makes a store orderly in which the others' layers are dense. -/
theorem isOrderly_normalizeZ (forest : IsForest s) (plain : s.IsPlain)
    (layered : ∀ place, place ≠ parent → s.Layered place) : (s.normalizeZ parent).IsOrderly where
  forest := forest.congr links_normalizeZ
  plain := plain.normalizeZ
  layered place := by
    by_cases same : place = parent
    · exact same ▸ layered_normalizeZ forest.distinct
    · exact (layered place same).normalizeZ forest.distinct

/-- Renumbering layers changes no id. -/
theorem ids_normalizeZ : (s.normalizeZ parent).ids = s.ids := ids_congr links_normalizeZ

/-- A node that was moved and perhaps adjusted, and the renumbering of both parents. -/
theorem isOrderly_moved (orderly : s.IsOrderly) (found : s.find? id = some n)
    (admits : s.Admits parent id) (adjusted : Adjusted id (s.modifyNode id (·.setParent parent)) t) :
    ((t.normalizeZ parent).normalizeZ n.parent).IsOrderly := by
  have only : ∀ m ∈ s.nodes, m.id = id → m = n := fun m isNode here =>
    eq_of_id_eq orderly.forest.distinct isNode (mem_of_find? found)
      (here.trans (id_of_find? found).symm)
  have plainMoved := orderly.plain.modifyNode id (f := (·.setParent parent))
    fun _ plain => Node.without_plain plain .parent
  have forest : IsForest t := (orderly.forest.setParent admits).congr adjusted.links
  have plain : t.IsPlain := adjusted.isPlain plainMoved
  refine isOrderly_normalizeZ (forest.congr links_normalizeZ) plain.normalizeZ fun place notOld => ?_
  by_cases isNew : place = parent
  · exact isNew ▸ layered_normalizeZ forest.distinct
  · refine Layered.normalizeZ forest.distinct ((orderly.layered place).congr ?_)
    rw [adjusted.layers, children_setParent]
    · exact fun m isNode here isChild => notOld (isChild ▸ only m isNode here ▸ rfl)
    · exact Ne.symm isNew
    · intro m isNode here isChild
      obtain ⟨k, isOld, rfl⟩ := List.mem_map.mp isNode
      by_cases isMoved : k.id = id
      · rw [if_pos isMoved] at isChild
        exact isNew isChild.symm
      · rw [if_neg isMoved] at here
        exact isMoved here

/-- A node is put on another layer. -/
theorem ends_bringToFront (distinct : s.ids.Nodup) (plain : s.IsPlain) (found : s.find? id = some n) :
    (bringToFront id parent).Ends s (fun _ t => ∃ z, t = s.modifyNode id (·.setZ z)) fun _ _ => False := by
  unfold bringToFront
  simp only [Edit.ends_bind, Edit.ends_get, found, Edit.ends_modify]
  refine Edit.ends_lift_ok (onTop_plain plain parent n) ⟨s.nextZ parent, ?_⟩
  obtain rfl := id_of_find? found
  rw [put_eq_modifyNode (n := n.setZ (s.nextZ parent)) distinct (mem_ids_of_find? found)]
  refine congrArg (fun nodes => { s with nodes }) (List.map_congr_left fun m isNode => ?_)
  by_cases here : m.id = n.id
  · rw [eq_of_id_eq distinct isNode (mem_of_find? found) here]
    rfl
  · exact (if_neg here).trans (if_neg here).symm

/-- A node that has its new parent and place is put on a layer there. -/
theorem ends_bringToFront_moved (distinct : s.ids.Nodup) (plain : s.IsPlain) (found : s.find? id = some n) (x y : α) :
    (bringToFront id parent).Ends
      (((s.modifyNode id (·.setParent parent)).modifyNode id (·.setX x)).modifyNode id (·.setY y))
      (fun _ t => ∃ z, t = s.modifyNode id (·.movedTo parent x y z)) fun _ _ => False := by
  rw [modifyNode_modifyNode (f := (·.setParent parent)) fun _ => rfl,
    modifyNode_modifyNode (f := fun n => (n.setParent parent).setX x) fun _ => rfl]
  have keepsId : ∀ n : Node α, (((n.setParent parent).setX x).setY y).id = n.id := fun _ => rfl
  have placed : (s.modifyNode id fun n => ((n.setParent parent).setX x).setY y).find? id =
      some (((n.setParent parent).setX x).setY y) := by
    rw [find?_modifyNode keepsId, found, Option.map_some, if_pos (id_of_find? found)]
  have plain' : (s.modifyNode id fun n => ((n.setParent parent).setX x).setY y).IsPlain :=
    plain.modifyNode id fun n isPlain =>
      Node.without_plain (Node.without_plain (Node.without_plain isPlain _) _) _
  refine (ends_bringToFront ((ids_modifyNode keepsId).symm ▸ distinct) plain' placed).mono ?_
    fun _ _ fails => fails
  rintro _ t ⟨z, rfl⟩
  exact ⟨z, modifyNode_modifyNode keepsId⟩

/-- What moving a node does: the node names its new parent and comes to some place and layer there;
then what is within it is clamped, and the children of both parents are renumbered. -/
theorem ends_reparent (distinct : s.ids.Nodup) (plain : s.IsPlain) {done : Bool → Store α → Prop}
    (stays : ¬s.canReparent id parent → done false s)
    (moves : ∀ n, s.find? id = some n → s.canReparent id parent → ∀ x y z,
      (clampSubtree id (Value.int leastSide)).Ends (s.modifyNode id (·.movedTo parent x y z))
        (fun _ t => done true ((t.normalizeZ parent).normalizeZ n.parent)) fun _ _ => True) :
    (reparent id parent).Ends s done fun _ _ => True := by
  unfold reparent
  simp only [Edit.ends_bind, Edit.ends_get]
  split
  · next missing => exact stays (by simp [canReparent, missing])
  · next n found =>
      split
      · next refused => exact stays (by simpa using refused)
      · next can =>
          rw [Bool.not_eq_true', Bool.not_eq_false] at can
          simp only [Edit.ends_bind, Edit.ends_get, Edit.ends_modify, Edit.ends_pure]
          refine Edit.ends_lift_any fun world _ => Edit.ends_lift_any fun start _ =>
            Edit.ends_lift_any fun x _ => Edit.ends_lift_any fun y _ => ?_
          refine (ends_bringToFront_moved distinct plain found x y).mono ?_ fun _ _ fails => fails.elim
          rintro _ t ⟨z, rfl⟩
          exact moves n found can x y z

/-- Moving a node keeps a store orderly. -/
theorem orderly_reparent (orderly : s.IsOrderly) :
    (reparent id parent).Ends s (fun _ t => t.IsOrderly ∧ t.ids = s.ids) fun _ _ => True := by
  refine ends_reparent orderly.forest.distinct orderly.plain (fun _ => ⟨orderly, rfl⟩) fun n found can x y z => ?_
  refine (keeps_clampSubtree _).mono (fun _ t reshaped => ?_) fun _ _ _ => trivial
  have adjusted := trans_of (Adjusted id) adjusted_movedTo (Adjusted.of_reshaped reshaped)
  refine ⟨isOrderly_moved orderly found (canReparent_admits orderly.forest can) adjusted, ?_⟩
  rw [ids_normalizeZ, ids_normalizeZ, ids_congr adjusted.links, ids_setParent]

/-- A moved node comes to a place that fits. -/
theorem IsMeasured.movedTo (measured : s.IsMeasured) {x y : α} {z : Int} (xFits : Arith.Fits x) (yFits : Arith.Fits y) :
    (s.modifyNode id (·.movedTo parent x y z)).IsMeasured :=
  measured.modifyNode id fun _ isMeasured => (((isMeasured.setParent parent).setX xFits).setY yFits).setZ z

/-- What moving a node does where its place under the new parent is known: it comes there, on some layer. -/
theorem ends_reparent_of_place (distinct : s.ids.Nodup) (plain : s.IsPlain) (found : s.find? id = some n)
    (can : s.canReparent id parent) {world start : Point α} {x y : α} (isWorld : s.absoluteAnchor id = .ok world)
    (isStart : (s.modifyNode id (·.setParent parent)).spaceOrigin parent = .ok start)
    (isX : Arith.sub world.1 start.1 = .ok x) (isY : Arith.sub world.2 start.2 = .ok y)
    {done : Bool → Store α → Prop} {failed : Fault → Store α → Prop}
    (moves : ∀ z, (clampSubtree id (Value.int leastSide)).Ends (s.modifyNode id (·.movedTo parent x y z))
      (fun _ t => done true ((t.normalizeZ parent).normalizeZ n.parent)) failed) :
    (reparent id parent).Ends s done failed := by
  unfold reparent
  simp only [Edit.ends_bind, Edit.ends_get, found, can, Bool.not_true, Bool.false_eq_true, if_false,
    Edit.ends_modify, Edit.ends_pure]
  refine Edit.ends_lift_ok isWorld (Edit.ends_lift_ok isStart (Edit.ends_lift_ok isX (Edit.ends_lift_ok isY ?_)))
  refine (ends_bringToFront_moved distinct plain found x y).mono ?_ fun _ _ fails => fails.elim
  rintro _ t ⟨z, rfl⟩
  exact moves z

/-- A request that is refused changes nothing. -/
theorem ends_reparent_of_refused (refused : ¬s.canReparent id parent) {done : Bool → Store α → Prop}
    {failed : Fault → Store α → Prop} (stays : done false s) : (reparent id parent).Ends s done failed := by
  unfold reparent
  simp only [Edit.ends_bind, Edit.ends_get]
  split
  · exact stays
  · rw [if_pos (by simpa using refused)]
    exact stays

/-- What moving a node does where measures fit: its place under the new parent can be computed, so that
only what clamps the nodes within it may fail. -/
theorem ends_reparent_of_measured [Lawful α] (distinct : s.ids.Nodup) (measured : s.IsMeasured)
    {done : Bool → Store α → Prop} {failed : Fault → Store α → Prop} (stays : done false s)
    (moves : ∀ n, s.find? id = some n → s.canReparent id parent → ∀ x y z, Arith.Fits x → Arith.Fits y →
      (clampSubtree id (Value.int leastSide)).Ends (s.modifyNode id (·.movedTo parent x y z))
        (fun _ t => done true ((t.normalizeZ parent).normalizeZ n.parent)) failed) :
    (reparent id parent).Ends s done failed := by
  by_cases can : s.canReparent id parent
  · obtain ⟨n, found⟩ := exists_find?_of_canReparent can
    have moved : (s.modifyNode id (·.setParent parent)).IsMeasured :=
      measured.modifyNode id fun n isMeasured => isMeasured.setParent parent
    obtain ⟨world, isWorld, worldReal⟩ := absoluteAnchor_ok measured id
    obtain ⟨start, isStart, startReal⟩ := spaceOrigin_ok moved parent
    obtain ⟨x, isX⟩ := Lawful.sub_ok worldReal.1.fits startReal.1.fits
    obtain ⟨y, isY⟩ := Lawful.sub_ok worldReal.2.fits startReal.2.fits
    refine ends_reparent_of_place distinct measured.isPlain found can isWorld isStart isX isY fun z => ?_
    exact moves n found can x y z (Lawful.isReal_sub isX (.inl worldReal.1)).fits
      (Lawful.isReal_sub isY (.inl worldReal.2)).fits
  · exact ends_reparent_of_refused can stays

/-- Moving a node whose measures fit does not fail. -/
theorem measured_reparent [Lawful α] (forest : s.IsForest) (measured : s.IsMeasured) :
    (reparent id parent).Ends s (fun _ t => t.IsMeasured ∧ t.ids = s.ids) fun _ _ => False := by
  refine ends_reparent_of_measured forest.distinct measured ⟨measured, rfl⟩ fun n found can x y z xFits yFits => ?_
  have forest' : (s.modifyNode id (·.movedTo parent x y z)).IsForest :=
    (forest.setParent (canReparent_admits forest can)).congr links_movedTo
  have sameIds : (s.modifyNode id (·.movedTo parent x y z)).ids = s.ids :=
    ids_modifyNode fun n => n.id_movedTo parent x y z
  refine ((ends_clampSubtree (measured.movedTo xFits yFits) forest'.isRooted
    (Value.isMeasure_num.mpr (Lawful.fits_ofInt (by decide))) (.inr (sameIds ▸ mem_ids_of_find? found))).and
      (keeps_clampSubtree _)).mono ?_ fun _ _ fails => fails.1
  rintro _ t ⟨isMeasured, reshaped⟩
  refine ⟨isMeasured.normalizeZ.normalizeZ, ?_⟩
  rw [ids_normalizeZ, ids_normalizeZ, reshaped.ids, sameIds]

/-- A neighbour is a node under the same parent. -/
theorem mem_of_neighbor? {up : Bool} (next : s.neighbor? n up = some m) :
    m ∈ s.nodes ∧ m.parent = n.parent := by
  rw [← mem_childrenOf]
  simp only [neighbor?] at next
  split at next
  · split at next
    · cases next
    · exact List.mem_of_getElem? next
  · exact List.mem_of_getElem? next

/-- What exchanging a node with its neighbour does: each comes to the layer of the other, and the
siblings are renumbered. -/
theorem ends_swapWithNeighbor (plain : s.IsPlain) {up : Bool} {done : Bool → Store α → Prop}
    {failed : Fault → Store α → Prop} (stays : (∀ n, s.find? id = some n → s.neighbor? n up = none) → done false s)
    (swaps : ∀ n m, s.find? id = some n → s.neighbor? n up = some m → done true
      (((s.modifyNode id (·.setZ m.z)).modifyNode m.id (·.setZ n.z)).normalizeZ n.parent)) :
    (swapWithNeighbor id up).Ends s done failed := by
  unfold swapWithNeighbor
  simp only [Edit.ends_bind, Edit.ends_get]
  split
  · next missing => exact stays (by simp [missing])
  · next n found =>
      simp only [Edit.ends_bind]
      refine Edit.ends_lift_ok (checkLayers_plain plain) ?_
      split
      · next alone => exact stays (by simpa [found] using alone)
      · next m next =>
          simp only [takeLayer_plain (plain n (mem_of_find? found)),
            takeLayer_plain (plain m (mem_of_neighbor? next).1)]
          have plain' : ((s.modifyNode id (·.setZ m.z)).modifyNode m.id (·.setZ n.z)).IsPlain :=
            (plain.modifyNode id (f := (·.setZ m.z)) fun _ isPlain => Node.without_plain isPlain .zIndex).modifyNode
              m.id (f := (·.setZ n.z)) fun _ isPlain => Node.without_plain isPlain .zIndex
          simp only [Edit.ends_bind, Edit.ends_get, Edit.ends_set, Edit.ends_modify, Edit.ends_pure]
          exact Edit.ends_lift_ok (checkLayers_plain plain') (swaps n m found next)

/-- Exchanging a node with its neighbour keeps a store orderly. -/
theorem orderly_swapWithNeighbor (orderly : s.IsOrderly) (up : Bool) :
    (swapWithNeighbor id up).Ends s
      (fun _ t => t.IsOrderly ∧ t.ids = s.ids ∧ (s.IsMeasured → t.IsMeasured)) fun _ _ => False := by
  refine ends_swapWithNeighbor orderly.plain (fun _ => ⟨orderly, rfl, fun measured => measured⟩) fun n m found next => ?_
  obtain ⟨isNode, siblings⟩ := mem_of_neighbor? next
  have distinct := orderly.forest.distinct
  have first : Adjusted id s (s.modifyNode id (·.setZ m.z)) :=
    Adjusted.modifyNode fun _ here => .setZ here m.z
  have second : Adjusted m.id (s.modifyNode id (·.setZ m.z))
      ((s.modifyNode id (·.setZ m.z)).modifyNode m.id (·.setZ n.z)) :=
    Adjusted.modifyNode fun _ here => .setZ here n.z
  have links := second.links.trans first.links
  have plain := second.isPlain (first.isPlain orderly.plain)
  refine ⟨isOrderly_normalizeZ (orderly.forest.congr links) plain fun place other => ?_, ?_, fun measured => ?_⟩
  · refine (orderly.layered place).congr ((second.layers ?_).trans (first.layers ?_))
    · intro k member here isChild
      obtain ⟨l, inStore, sameLink⟩ := exists_link first.links member
      have sameId : l.id = m.id := (congrArg Link.id sameLink).trans here
      have sameParent : l.parent = place := (congrArg Link.parent sameLink).trans isChild
      rw [eq_of_id_eq distinct inStore isNode sameId, siblings] at sameParent
      exact other sameParent.symm
    · intro k member here isChild
      have same := eq_of_id_eq distinct member (mem_of_find? found) (here.trans (id_of_find? found).symm)
      exact other (isChild.symm.trans (congrArg Node.parent same))
  · rw [ids_normalizeZ, ids_congr links]
  · have first := measured.modifyNode id fun n isMeasured => isMeasured.setZ m.z
    exact (first.modifyNode m.id fun k isMeasured => isMeasured.setZ n.z).normalizeZ

/-- Moving one child of a parent beside another reorders its children. -/
theorem perm_moveBeside (distinct : s.ids.Nodup) (listed : id ∈ s.childIds parent)
    (beside : other ∈ s.childIds parent) (differs : id ≠ other) (position : DropPosition) :
    (moveBeside (s.childIds parent) id other position).Perm (s.childIds parent) := by
  rw [moveBeside_eq (nodup_childIds distinct parent) listed beside differs]
  have others : other ∈ (s.childIds parent).filter (· ≠ id) := by simpa using ⟨beside, differs.symm⟩
  have filtered : (s.childIds parent).filter (· ≠ id) = (s.childIds parent).erase id := by
    rw [(nodup_childIds distinct parent).erase_eq_filter]
    exact List.filter_congr fun a _ => by rw [Bool.eq_iff_iff]; simp
  refine (placeBeside_perm others).trans ?_
  rw [filtered]
  exact (List.perm_cons_erase listed).symm

/-- What comes of numbering the children of a parent with one beside another; where one of them is no child
of that parent, nothing is numbered. -/
def NumbersBeside (id other parent : Text) (position : DropPosition) (done : Bool → Store α → Prop)
    (s : Store α) : Prop :=
  if id ∈ s.childIds parent ∧ other ∈ s.childIds parent then
    done true (s.numberBy (moveBeside (s.childIds parent) id other position))
  else done false s

/-- What placing a node beside another one does: unless one of them is missing or they are the same, the node
is moved under the other's parent where it has another one, and then the children of that are numbered. -/
theorem ends_reorderRelative_of {done : Bool → Store α → Prop} {failed : Fault → Store α → Prop}
    (position : DropPosition) (stays : id ∉ s.ids ∨ other ∉ s.ids ∨ id = other → done false s)
    (siblings : ∀ n m, s.find? id = some n → s.find? other = some m → id ≠ other → n.parent = m.parent →
      s.IsPlain ∧ NumbersBeside id other m.parent position done s)
    (moves : ∀ n m, s.find? id = some n → s.find? other = some m → id ≠ other → n.parent ≠ m.parent →
      (reparent id m.parent).Ends s
        (fun _ t => t.IsPlain ∧ NumbersBeside id other m.parent position done t) failed) :
    (reorderRelative id other position).Ends s done failed := by
  have numbers : ∀ {t : Store α} {parent : Text},
      t.IsPlain ∧ NumbersBeside id other parent position done t →
      Edit.Ends (do
        (← get).checkLayers parent
        let ids := (← get).childIds parent
        if !(ids.elem id && ids.elem other) then return false
        modify (·.numberBy (moveBeside ids id other position))
        return true : Edit (Store α) Bool) t done failed := by
    rintro t parent ⟨plain, numbers⟩
    simp only [Edit.ends_bind, Edit.ends_get]
    refine Edit.ends_lift_ok (checkLayers_plain plain) ?_
    simp only [NumbersBeside, ← List.elem_iff, ← Bool.and_eq_true] at numbers
    split
    · next missing =>
        rw [Bool.not_eq_true'] at missing
        rwa [missing, if_neg Bool.false_ne_true] at numbers
    · next listed =>
        rw [Bool.not_eq_true', Bool.not_eq_false] at listed
        rwa [if_pos listed] at numbers
  unfold reorderRelative
  simp only [Edit.ends_bind, Edit.ends_get]
  split
  · next n m found found' =>
      split
      · next same => exact stays (.inr (.inr same))
      · next differs =>
          split
          · next elsewhere =>
              rw [Edit.ends_bind]
              exact (moves n m found found' differs elsewhere).mono (fun _ _ => numbers) fun _ _ fails => fails
          · next together => exact numbers (siblings n m found found' differs (not_not.mp together))
  · next missing =>
      refine stays (or_iff_not_imp_left.mpr fun known => .inl fun known' => ?_)
      obtain ⟨n, found⟩ := exists_find? (not_not.mp known)
      obtain ⟨m, found'⟩ := exists_find? known'
      exact missing n m found found'

/-- What moving a node and numbering the children of a parent keep, placing a node beside another one keeps. -/
theorem ends_reorderRelative (holds : Store α → Prop) {failed : Fault → Store α → Prop}
    (known : ∀ {t}, holds t → t.IsPlain ∧ t.ids.Nodup) (start : holds s)
    (moves : ∀ {parent}, (reparent id parent).Ends s (fun _ t => holds t) failed)
    (renumbers : ∀ {t order} parent, holds t → order.Perm ((t.children parent).map Node.id) →
      holds (t.numberBy order)) (position : DropPosition) :
    (reorderRelative id other position).Ends s (fun _ t => holds t) failed := by
  have numbers : ∀ {t} parent, holds t → id ≠ other →
      t.IsPlain ∧ NumbersBeside id other parent position (fun _ => holds) t := by
    intro t parent isHeld differs
    refine ⟨(known isHeld).1, ?_⟩
    rw [NumbersBeside]
    split
    · next listed =>
        refine renumbers parent isHeld (.trans ?_ childIds_perm)
        exact perm_moveBeside (known isHeld).2 listed.1 listed.2 differs _
    · exact isHeld
  refine ends_reorderRelative_of position (fun _ => start) (fun _ m _ _ differs _ => numbers m.parent start differs)
    fun _ m _ _ differs _ => ?_
  exact moves.mono (fun _ _ isHeld => numbers m.parent isHeld differs) fun _ _ fails => fails

/-- Placing a node beside another one keeps a store orderly. -/
theorem orderly_reorderRelative (orderly : s.IsOrderly) (position : DropPosition) :
    (reorderRelative id other position).Ends s (fun _ t => t.IsOrderly ∧ t.ids = s.ids)
      fun _ _ => True := by
  refine ends_reorderRelative (fun t => t.IsOrderly ∧ t.ids = s.ids)
    (fun holds => ⟨holds.1.plain, holds.1.forest.distinct⟩) ⟨orderly, rfl⟩ (orderly_reparent orderly)
    (fun _ holds all => ?_) position
  exact ⟨isOrderly_numberBy holds.1 _ all, (ids_congr links_numberBy).trans holds.2⟩

/-- Placing a node beside another one does not fail where measures fit. -/
theorem measured_reorderRelative [Lawful α] (forest : s.IsForest) (measured : s.IsMeasured)
    (position : DropPosition) :
    (reorderRelative id other position).Ends s (fun _ t => t.IsMeasured) fun _ _ => False := by
  refine (ends_reorderRelative (fun t => t.IsMeasured ∧ t.ids = s.ids)
    (fun holds => ⟨holds.1.isPlain, holds.2 ▸ forest.distinct⟩) ⟨measured, rfl⟩
    (measured_reparent forest measured) (fun _ holds _ => ⟨holds.1.numberBy, ?_⟩) position).mono
      (fun _ _ holds => holds.1) fun _ _ fails => fails
  exact (ids_congr links_numberBy).trans holds.2

end

end Store

end LayoutDesigner
