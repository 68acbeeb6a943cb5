import LayoutDesigner.Proofs.Housed
import LayoutDesigner.Proofs.SiblingOrder

/-!
# Placing a node beside another one

A node that is placed beside another one comes to the other's parent and stands there directly before or
after it; all other nodes stay among their siblings as they were. Only what makes no sense is refused: a
node that is missing, one beside itself, and one beside something within it.
-/

namespace LayoutDesigner

open Arith (Lawful)

variable {α : Type}

namespace Store

variable {s t u : Store α} {id other parent place dragged target : Text} {n m : Node α} {position : DropPosition}
  {before after : List Text} {up : Bool}

/-- Beside the first of its kind. -/
theorem placeBeside_append (first : other ∉ before) :
    placeBeside id other up (before ++ other :: after) = beside before after other id up := by
  induction before with
  | nil => cases up <;> simp [placeBeside, beside]
  | cons head rest ih =>
      rw [List.mem_cons, not_or] at first
      rw [List.cons_append, placeBeside, if_neg (Ne.symm first.1), ih first.2]
      cases up <;> rfl

/-- Without the item beside the other one, what was there before. -/
theorem filter_beside (absent : id ∉ before ++ other :: after) :
    (beside before after other id up).filter (· ≠ id) = before ++ other :: after := by
  have left : (beside before after other id up).filter (· ≠ id) = (before ++ other :: after).filter (· ≠ id) := by
    cases up <;> simp [beside, List.filter_cons]
  rw [left, List.filter_eq_self]
  intro k listed
  simpa using fun same : k = id => absent (same ▸ listed)

variable [Arith α]

/-- What numbering the children of a parent with one beside another makes of them. -/
structure Numbered (s t : Store α) (id other parent : Text) (up : Bool) : Prop where
  links : t.links = s.links
  plain : t.IsPlain
  beside : ∃ before after, t.childIds parent = beside before after other id up
  others : KeepsOthers id s t
  layers : (t.childrenOf parent).map Node.z = firstLayers (t.childIds parent).length
  elsewhere : ∀ place, place ≠ parent → t.children place = s.children place

/-- Numbering siblings by where the one was moved beside the other numbers them as is asked for. -/
theorem numbered_numberBy (plain : s.IsPlain) (distinct : s.ids.Nodup) (differs : id ≠ other)
    (listed : id ∈ s.childIds parent) (listed' : other ∈ s.childIds parent) (position : DropPosition) :
    Numbered s (s.numberBy (moveBeside (s.childIds parent) id other position)) id other parent
      (position = .above) := by
  have isOther : other ∈ (s.childIds parent).filter (· ≠ id) := by simpa using ⟨listed', differs.symm⟩
  have nodup : ((s.childIds parent).filter (· ≠ id)).Nodup := (nodup_childIds distinct parent).sublist List.filter_sublist
  have absent : id ∉ (s.childIds parent).filter (· ≠ id) := by simp
  have all := perm_moveBeside distinct listed listed' differs position
  have order := childIds_numberBy plain distinct all
  obtain ⟨before, after, split⟩ := List.append_of_mem isOther
  rw [split] at nodup absent
  have first : other ∉ before := fun isBefore => List.disjoint_of_nodup_append nodup isBefore (by simp)
  have placed : moveBeside (s.childIds parent) id other position =
      Store.beside before after other id (position = .above) := by
    rw [moveBeside_eq (nodup_childIds distinct parent) listed listed' differs, split, placeBeside_append first]
  refine ⟨links_numberBy, plain.numberBy, ⟨before, after, order.trans placed⟩, fun place => ?_, ?_, fun place differs => ?_⟩
  · by_cases here : place = parent
    · rw [here, order, placed, filter_beside absent, split]
    · rw [childIds_numberBy_other distinct all here]
  · rw [layers_numberBy plain distinct all, order]
  · exact children_numberBy_other distinct (fun _ inOrder => childIds_perm.mem_iff.mp (all.mem_iff.mp inOrder)) differs

/-- What moving a node does to the others: they keep their order, and the layers that the node leaves are made dense. -/
theorem ends_reparent_of_can (forest : s.IsForest) (plain : s.IsPlain) (found : s.find? id = some n)
    (can : s.canReparent id parent) :
    (reparent id parent).Ends s
      (fun _ t => t.links = (s.modifyNode id (·.setParent parent)).links ∧ t.IsPlain ∧ KeepsOthers id s t ∧
        t.Layered n.parent) fun _ _ => True := by
  refine ends_reparent forest.distinct plain (fun refused => absurd can refused) fun k isNode _ x y z => ?_
  obtain rfl := Option.some.inj (found.symm.trans isNode)
  refine (keeps_clampSubtree _).mono (fun _ t reshaped => ?_) fun _ _ _ => trivial
  have moved : (s.modifyNode id (·.movedTo parent x y z)).IsPlain :=
    plain.modifyNode id fun _ plain => Node.plain_movedTo plain parent x y z
  have links : t.links = (s.modifyNode id (·.setParent parent)).links := reshaped.links.trans links_movedTo
  have isPlain : t.IsPlain := reshaped.isPlain moved
  have distinct : t.ids.Nodup := by
    rw [ids_congr links, ids_setParent]
    exact forest.distinct
  have distinct' : (t.normalizeZ parent).ids.Nodup := by
    rw [ids_normalizeZ]
    exact distinct
  have others : KeepsOthers id s (s.modifyNode id (·.movedTo parent x y z)) :=
    .modifyNode (fun n => n.id_movedTo parent x y z) (fun _ plain => Node.plain_movedTo plain parent x y z) plain
      forest.distinct
  refine ⟨?_, isPlain.normalizeZ.normalizeZ, others.trans (.of_childIds fun place => ?_), layered_normalizeZ distinct'⟩
  · rw [links_normalizeZ, links_normalizeZ, links]
  · rw [childIds_normalizeZ isPlain.normalizeZ distinct', childIds_normalizeZ isPlain distinct, reshaped.childIds moved]

omit [Arith α] in
/-- A node can be moved to the parent of another one unless that parent is within it. -/
theorem canReparent_iff (forest : s.IsForest) (found : s.find? id = some n) (isNode : m ∈ s.nodes)
    (elsewhere : n.parent ≠ m.parent) : s.canReparent id m.parent ↔ ¬s.IsWithin m.parent id := by
  rw [canReparent_iff_admits forest found, and_iff_left elsewhere.symm]
  constructor
  · rintro (isRoot | ⟨-, outside⟩)
    · rw [isRoot]
      rintro (same | leads)
      · exact forest.unreserved (same ▸ mem_ids_of_find? found)
      · exact forest.unreserved leads.mem_ids
    · exact not_or.mpr outside
  · intro outside
    exact (forest.contained m isNode).imp_right fun contained => ⟨contained, not_or.mp outside⟩

/-- Why a node is not placed beside another one: one of them is missing, they are the same, or the other's
parent is within the node. -/
def IsRefused (s : Store α) (dragged target : Text) : Prop :=
  dragged ∉ s.ids ∨ target ∉ s.ids ∨ dragged = target ∨ ∃ parent, s.parent? target = some parent ∧ s.IsWithin parent dragged

/-- A node is under another one's parent and stands directly before or after it. All others have their parents
and their order, and the layers under the two parents that the node has had are 1, 2, … -/
structure PlacedBeside (s t : Store α) (dragged target : Text) (up : Bool) : Prop where
  parent : t.parent? dragged = s.parent? target
  links : ∀ id, id ≠ dragged → t.parent? id = s.parent? id
  beside : ∀ parent, s.parent? target = some parent → ∃ before after, t.childIds parent = beside before after target dragged up
  others : KeepsOthers dragged s t
  layers : ∀ parent, s.parent? target = some parent → (t.childrenOf parent).map Node.z = firstLayers (t.childIds parent).length
  left : ∀ parent, s.parent? dragged = some parent → s.parent? target ≠ some parent →
    t.childIds parent = (s.childIds parent).filter (· ≠ dragged) ∧
      (t.childrenOf parent).map Node.z = firstLayers (t.childIds parent).length

/-- Numbering after the move, where there is one. -/
theorem placedBeside_of_numbered (found : s.find? dragged = some n) (found' : s.find? target = some m)
    (distinct : t.ids.Nodup)
    (parents : ∀ id, t.parent? id = if id = dragged then some m.parent else s.parent? id)
    (others : KeepsOthers dragged s t) (layered : n.parent ≠ m.parent → t.Layered n.parent)
    (numbered : Numbered t u dragged target m.parent up) : PlacedBeside s u dragged target up := by
  have sameParents := parent?_congr numbered.links
  have isTarget : s.parent? target = some m.parent := parent?_of_find? found'
  refine ⟨?_, fun id other => ?_, fun parent link => ?_, others.trans numbered.others, fun parent link => ?_, ?_⟩
  · rw [sameParents, parents, if_pos rfl, isTarget]
  · rw [sameParents, parents, if_neg other]
  · obtain rfl := Option.some.inj (isTarget.symm.trans link)
    exact numbered.beside
  · obtain rfl := Option.some.inj (isTarget.symm.trans link)
    exact numbered.layers
  · intro parent link elsewhere
    obtain rfl := Option.some.inj ((parent?_of_find? found).symm.trans link)
    have isElsewhere : n.parent ≠ m.parent := fun same => elsewhere (same ▸ isTarget)
    have children := numbered.elsewhere n.parent isElsewhere
    have gone : dragged ∉ t.childIds n.parent := by
      rw [mem_childIds_iff distinct, parents, if_pos rfl]
      exact fun same => isElsewhere (Option.some.inj same).symm
    have kept : (t.childIds n.parent).filter (· ≠ dragged) = t.childIds n.parent :=
      List.filter_eq_self.mpr fun id listed => by simpa using fun same : id = dragged => gone (same ▸ listed)
    refine ⟨?_, ?_⟩
    · rw [childIds_congr children, ← kept, others]
    · rw [layers_childrenOf numbered.plain ((layered isElsewhere).congr (by rw [children])), childIds, List.length_map]

/-- What is refused changes nothing. -/
theorem reorderRelative_of_refused (forest : s.IsForest) (plain : s.IsPlain) (refused : s.IsRefused dragged target)
    (position : DropPosition) : reorderRelative dragged target position s = .ok false s := by
  have ends : (reorderRelative dragged target position).Ends s (fun placed t => placed = false ∧ t = s)
      fun _ _ => False := by
    refine ends_reorderRelative_of position (fun _ => ⟨rfl, rfl⟩) (fun n m found found' differs together => ?_)
      fun n m found found' differs elsewhere => ?_
    all_goals
      obtain ⟨parent, link, within⟩ := ((refused.resolve_left (not_not.mpr (mem_ids_of_find? found))).resolve_left
        (not_not.mpr (mem_ids_of_find? found'))).resolve_left differs
      obtain rfl := Option.some.inj ((parent?_of_find? found').symm.trans link)
    · exact absurd ((leadsUp_of_parent? (parent?_of_find? found)).mpr (together ▸ within)) forest.not_leadsUp_self
    · have isMember := mem_of_find? found'
      refine ends_reparent_of_refused (fun can => (canReparent_iff forest found isMember elsewhere).mp can within) ?_
      refine ⟨plain, ?_⟩
      have absent : dragged ∉ s.childIds m.parent := by
        rw [mem_childIds_iff forest.distinct, parent?_of_find? found]
        exact fun same => elsewhere (Option.some.inj same)
      rw [NumbersBeside, if_neg fun listed => absent listed.1]
      exact ⟨rfl, rfl⟩
  obtain ⟨_, _, ran, rfl, rfl⟩ := ends.ok
  exact ran

/-- What is not refused places the node. -/
theorem ends_reorderRelative_of_admitted (forest : s.IsForest) (plain : s.IsPlain) (admitted : ¬s.IsRefused dragged target)
    (position : DropPosition) : (reorderRelative dragged target position).Ends s
      (fun placed t => placed = true ∧ PlacedBeside s t dragged target (position = .above)) fun _ _ => True := by
  have numbers : ∀ {t : Store α} {n m}, s.find? dragged = some n → s.find? target = some m → dragged ≠ target →
      t.IsPlain → t.ids.Nodup → (∀ id, t.parent? id = if id = dragged then some m.parent else s.parent? id) →
      KeepsOthers dragged s t → (n.parent ≠ m.parent → t.Layered n.parent) →
      t.IsPlain ∧ NumbersBeside dragged target m.parent position
        (fun placed u => placed = true ∧ PlacedBeside s u dragged target (position = .above)) t := by
    intro t n m found found' differs plain distinct parents others layered
    have listed : dragged ∈ t.childIds m.parent := by rw [mem_childIds_iff distinct, parents, if_pos rfl]
    have listed' : target ∈ t.childIds m.parent := by
      rw [mem_childIds_iff distinct, parents, if_neg differs.symm, parent?_of_find? found']
    rw [NumbersBeside, if_pos ⟨listed, listed'⟩]
    exact ⟨plain, rfl, placedBeside_of_numbered found found' distinct parents others layered
      (numbered_numberBy plain distinct differs listed listed' _)⟩
  refine ends_reorderRelative_of position (fun known => absurd ?_ admitted) (fun n m found found' differs together => ?_)
    fun n m found found' differs elsewhere => ?_
  · exact known.imp_right (.imp_right .inl)
  · refine numbers found found' differs plain forest.distinct (fun id => ?_) (.refl _ _) fun apart => absurd together apart
    split
    · next here => rw [here, parent?_of_find? found, together]
    · rfl
  · have isMember := mem_of_find? found'
    have can : s.canReparent dragged m.parent := (canReparent_iff forest found isMember elsewhere).mpr fun within =>
      admitted (.inr (.inr (.inr ⟨_, parent?_of_find? found', within⟩)))
    refine (ends_reparent_of_can forest plain found can).mono ?_ fun _ _ _ => trivial
    rintro _ t ⟨links, plain', others, layered⟩
    have distinct : t.ids.Nodup := by
      rw [ids_congr links, ids_setParent]
      exact forest.distinct
    refine numbers found found' differs plain' distinct (fun id => ?_) others fun _ => layered
    rw [parent?_congr links, parent?_setParent]
    split
    · next here => rw [here, parent?_of_find? found, Option.map_some]
    · rfl

/-- **A node is placed exactly beside another one.** Take a store whose nodes are a forest of containers, any
two ids and any position. Where one of the ids is no node's, where they are the same, or where the parent of
the target is the dragged node or below it, the answer is no and nothing is changed. Else the answer is yes:
the dragged node is under the target's parent, directly before the target (above) or directly after it, all
others have the parents and the order they had, and the layers there, and where the node came from another
parent also those that it left, are 1, 2, … This fails only where some measure does not fit. -/
theorem reorderRelative_places [Lawful α] (forest : s.IsForest) (plain : s.IsPlain) (dragged target : Text)
    (position : DropPosition) :
    (s.IsRefused dragged target → reorderRelative dragged target position s = .ok false s) ∧
      (¬s.IsRefused dragged target → (reorderRelative dragged target position).Ends s
        (fun placed t => placed = true ∧ PlacedBeside s t dragged target (position = .above))
        fun _ _ => ¬s.IsMeasured) := by
  refine ⟨fun refused => reorderRelative_of_refused forest plain refused position, fun admitted => ?_⟩
  refine ((ends_reorderRelative_of_admitted forest plain admitted position).and_when fun measured =>
    measured_reorderRelative forest measured position).mono (fun _ _ both => both.1) ?_
  rintro fault t ⟨-, fails⟩ measured
  exact fails measured

/-- Two frames on the canvas, one of which holds a third one. -/
def shelved : Store ℚ where
  canvasW := .int 980
  canvasH := .int 620
  nodes := [Node.square .frame "inner" "shelf" (1 / 2) 40 30, Node.square .frame "shelf" root (1 / 2) 90 200,
    { Node.square .frame "other" root (1 / 2) 90 400 with z := 2 }]

/-- The inner frame is placed before the other one, and the shelf is not placed after what it holds. -/
theorem reorderRelative_places_shelved :
    (reorderRelative "inner" "other" .above).Ends shelved
      (fun placed t => placed = true ∧ PlacedBeside shelved t "inner" "other" true) (fun _ _ => False) ∧
      reorderRelative "shelf" "inner" .below shelved = .ok false shelved := by
  have shelf : shelved.parent? "shelf" = some root := by decide
  have inner : shelved.parent? "inner" = some "shelf" := by decide
  have other : shelved.parent? "other" = some root := by decide
  have numeric : shelved.IsNumeric := ⟨by simp [shelved, Node.square, IsPlain], ⟨_, rfl⟩, ⟨_, rfl⟩⟩
  have forest : shelved.IsForest := by
    refine ⟨by decide, by decide, fun n member => ?_, fun n member => ?_⟩ <;>
      simp only [shelved, List.mem_cons, List.not_mem_nil, or_false] at member <;>
      rcases member with rfl | rfl | rfl
    · exact .inr ⟨_, List.mem_cons_of_mem _ List.mem_cons_self, rfl, rfl⟩
    · exact .inl rfl
    · exact .inl rfl
    · exact .step inner (.step shelf .atRoot)
    · exact .step shelf .atRoot
    · exact .step other .atRoot
  have admitted : ¬shelved.IsRefused "inner" "other" := by
    rintro (missing | missing | same | ⟨parent, link, within⟩)
    · exact missing (by decide)
    · exact missing (by decide)
    · exact absurd same (by decide)
    · obtain rfl := Option.some.inj (other.symm.trans link)
      rcases within with same | leads
      · exact absurd same (by decide)
      · exact forest.unreserved leads.mem_ids
  constructor
  · exact ((reorderRelative_places forest numeric.plain "inner" "other" .above).2 admitted).mono
      (fun _ _ placed => placed) fun _ _ fails => fails numeric.isMeasured
  · exact (reorderRelative_places forest numeric.plain "shelf" "inner" .below).1
      (.inr (.inr (.inr ⟨"shelf", inner, .refl _⟩)))

end Store

end LayoutDesigner
