import LayoutDesigner.Proofs.Exchange
import LayoutDesigner.Proofs.Property

/-!
# Writing a layer

A node whose layer is written comes to stand beside the sibling that has this layer already, on the side
that their two ids decide; then the siblings are numbered again. So the node comes to the layer that was
written or misses it by one.
-/

namespace LayoutDesigner

open Arith (Lawful)

variable {α : Type}

/-- The layer that a node comes to when that of a sibling is written for it. -/
def Node.landing (n sibling : Node α) : Int :=
  if n.z < sibling.z then if sibling.id < n.id then sibling.z else sibling.z - 1
  else if sibling.z < n.z then if n.id < sibling.id then sibling.z else sibling.z + 1
  else sibling.z

/-- The place of an item in a list without another one. -/
theorem idxOf_filter_ne {items : List Text} {a b : Text} (distinct : items.Nodup) (differs : a ≠ b)
    (listed : a ∈ items) :
    (items.filter (· ≠ b)).idxOf a = items.idxOf a - if items.idxOf b < items.idxOf a then 1 else 0 := by
  induction items with
  | nil => cases listed
  | cons head rest ih =>
      rw [List.nodup_cons] at distinct
      by_cases isOther : head = b
      · have kept : rest.filter (· ≠ b) = rest :=
          List.filter_eq_self.mpr fun k inRest => by simpa using fun same : k = b => distinct.1 (isOther ▸ same ▸ inRest)
        rw [List.filter_cons_of_neg (by simpa using isOther), kept, isOther, List.idxOf_cons_ne _ (Ne.symm differs),
          List.idxOf_cons_self, if_pos (Nat.succ_pos _), Nat.succ_sub_one]
      · rw [List.filter_cons_of_pos (by simpa using isOther)]
        by_cases here : head = a
        · simp [here]
        · have next := ih distinct.2 ((List.mem_cons.mp listed).resolve_left (Ne.symm here))
          rw [List.idxOf_cons_ne _ here, List.idxOf_cons_ne _ here, List.idxOf_cons_ne _ isOther, next]
          split <;> split <;> omega

namespace Store

variable [Arith α] {s t : Store α} {n m : Node α} {before after : List Text} {parent : Text} {k : Int}

/-- In drawing order, dense layers grow. -/
theorem childrenOf_increasing (plain : s.IsPlain) (layered : s.Layered parent) :
    (s.childrenOf parent).Pairwise fun a b => a.z < b.z := by
  have layers : ((s.childrenOf parent).map Node.z).Pairwise (· < ·) := by
    rw [layers_childrenOf plain layered, firstLayers, List.pairwise_map]
    refine List.pairwise_lt_range.imp fun less => ?_
    omega
  exact List.pairwise_map.mp layers

omit [Arith α] in
/-- A node on the layer of another one of a row, put in beside it. -/
theorem pairwise_drawnBefore_beside {left right : List (Node α)} (increasing : (left ++ m :: right).Pairwise fun a b => a.z < b.z)
    (same : n.z = m.z) :
    (if n.id ≤ m.id then left ++ n :: m :: right else left ++ m :: n :: right).Pairwise fun a b => a.drawnBefore b := by
  have less : ∀ {a b : Node α}, a.z < b.z → a.drawnBefore b := fun less => Node.drawnBefore_iff.mpr (.inl less)
  simp only [List.pairwise_append, List.pairwise_cons, List.mem_cons] at increasing
  obtain ⟨lefts, ⟨above, rights⟩, below⟩ := increasing
  have below' : ∀ a ∈ left, a.z < n.z := fun a inLeft => same ▸ below a inLeft m (.inl rfl)
  have above' : ∀ b ∈ right, n.z < b.z := fun b inRight => same ▸ above b inRight
  split
  · next first =>
      simp only [List.pairwise_append, List.pairwise_cons, List.mem_cons]
      refine ⟨lefts.imp less, ⟨?_, fun b inRight => less (above b inRight), rights.imp less⟩, ?_⟩
      · rintro b (rfl | inRight)
        · exact Node.drawnBefore_iff.mpr (.inr ⟨same, first⟩)
        · exact less (above' b inRight)
      · rintro a inLeft b (rfl | rest)
        · exact less (below' a inLeft)
        · exact less (below a inLeft b rest)
  · next later =>
      simp only [List.pairwise_append, List.pairwise_cons, List.mem_cons]
      refine ⟨lefts.imp less, ⟨?_, fun b inRight => less (above' b inRight), rights.imp less⟩, ?_⟩
      · rintro b (rfl | inRight)
        · exact Node.drawnBefore_iff.mpr (.inr ⟨same.symm, (not_le.mp later).le⟩)
        · exact less (above b inRight)
      · rintro a inLeft b (rfl | rfl | inRight)
        · exact less (below a inLeft b (.inl rfl))
        · exact less (below' a inLeft)
        · exact less (below a inLeft b (.inr inRight))

/-- The others of a row that a child stands in have other ids. -/
theorem id_ne_of_row {lower higher : List (Node α)} (distinct : s.ids.Nodup)
    (row : s.childrenOf parent = lower ++ n :: higher) : ∀ k ∈ lower ++ higher, k.id ≠ n.id := by
  have nodup := nodup_childIds distinct parent
  rw [childIds, row, List.map_append, List.map_cons, List.nodup_middle, ← List.map_append, List.nodup_cons] at nodup
  exact fun k listed same => nodup.1 (same ▸ List.mem_map_of_mem listed)

/-- The children once the layer of one of them is that of a sibling. -/
theorem childrenOf_setZ {lower higher left right : List (Node α)} (plain : s.IsPlain) (distinct : s.ids.Nodup)
    (layered : s.Layered n.parent) (row : s.childrenOf n.parent = lower ++ n :: higher)
    (others : lower ++ higher = left ++ m :: right) : (s.modifyNode n.id (·.setZ m.z)).childrenOf n.parent =
      if n.id ≤ m.id then left ++ n.setZ m.z :: m :: right else left ++ m :: n.setZ m.z :: right := by
  have increasing : (lower ++ higher).Pairwise fun a b => a.z < b.z := by
    have all := childrenOf_increasing plain layered
    rw [row] at all
    exact all.sublist (.append_left (List.sublist_cons_self ..) _)
  refine childrenOf_eq (plain.modifyNode n.id fun _ plain => Node.without_plain plain .zIndex)
    ((ids_modifyNode (fun _ => rfl : ∀ k : Node α, (k.setZ m.z).id = k.id)).symm ▸ distinct) ?_
    (pairwise_drawnBefore_beside (n := n.setZ m.z) (others ▸ increasing) rfl)
  have children : (s.modifyNode n.id (·.setZ m.z)).children n.parent =
      (s.children n.parent).map fun k => if k.id = n.id then k.setZ m.z else k := by
    rw [modifyNode_eq_mapNodes]
    refine children_mapNodes fun k => ?_
    split <;> rfl
  have changed : (s.childrenOf n.parent).map (fun k => if k.id = n.id then k.setZ m.z else k) =
      lower ++ n.setZ m.z :: higher := by
    have kept : ∀ {nodes : List (Node α)}, (∀ k ∈ nodes, k.id ≠ n.id) →
        nodes.map (fun k => if k.id = n.id then k.setZ m.z else k) = nodes := fun others =>
      (List.map_congr_left fun k listed => if_neg (others k listed)).trans (List.map_id _)
    have other := id_ne_of_row distinct row
    rw [row, List.map_append, List.map_cons, if_pos rfl, kept fun k listed => other k (List.mem_append_left _ listed),
      kept fun k listed => other k (List.mem_append_right _ listed)]
  have beside : (lower ++ n.setZ m.z :: higher).Perm (n.setZ m.z :: (left ++ m :: right)) := others ▸ List.perm_middle
  rw [children]
  refine .trans (.trans ?_ beside.symm) (changed ▸ childrenOf_perm.map _)
  split
  · exact List.perm_middle
  · have last : ((left ++ [m]) ++ n.setZ m.z :: right).Perm (n.setZ m.z :: ((left ++ [m]) ++ right)) := List.perm_middle
    simpa using last

/-- A child whose layer is that of a sibling stands beside it, before it where its id comes first. -/
theorem childIds_setZ (plain : s.IsPlain) (distinct : s.ids.Nodup) (layered : s.Layered n.parent) (isNode : n ∈ s.nodes)
    (isNode' : m ∈ s.nodes) (siblings : m.parent = n.parent) (differs : m.id ≠ n.id) :
    ∃ before after, (s.childIds n.parent).filter (· ≠ n.id) = before ++ m.id :: after ∧
      (s.modifyNode n.id (·.setZ m.z)).childIds n.parent = beside before after m.id n.id (n.id ≤ m.id) := by
  obtain ⟨lower, higher, row⟩ := List.append_of_mem (mem_childrenOf.mpr ⟨isNode, rfl⟩ : n ∈ s.childrenOf n.parent)
  have isOther : m ∈ lower ++ higher := by
    have listed : m ∈ n :: (lower ++ higher) := List.perm_middle.mem_iff.mp (row ▸ mem_childrenOf.mpr ⟨isNode', siblings⟩)
    exact (List.mem_cons.mp listed).resolve_left fun same => differs (same ▸ rfl)
  obtain ⟨left, right, others⟩ := List.append_of_mem isOther
  have ids : (s.childIds n.parent).filter (· ≠ n.id) = (lower ++ higher).map Node.id := by
    rw [childIds, row, List.map_append, List.map_cons, List.filter_append, List.filter_cons_of_neg (by simp),
      ← List.filter_append, ← List.map_append, List.filter_eq_self]
    intro id listed
    obtain ⟨k, isListed, rfl⟩ := List.mem_map.mp listed
    simpa using id_ne_of_row distinct row k isListed
  have sameId : (n.setZ m.z).id = n.id := rfl
  refine ⟨left.map Node.id, right.map Node.id, ?_, ?_⟩
  · rw [ids, others, List.map_append, List.map_cons]
  · rw [childIds, childrenOf_setZ plain distinct layered row others]
    by_cases first : n.id ≤ m.id <;> simp [beside, first, sameId]

/-- The place of a child whose layer was written, the siblings being numbered from one. -/
theorem idxOf_childIds_setZ (plain : s.IsPlain) (distinct : s.ids.Nodup) (layered : s.Layered n.parent)
    (isNode : n ∈ s.nodes) (isNode' : m ∈ s.nodes) (siblings : m.parent = n.parent) :
    (((s.modifyNode n.id (·.setZ m.z)).childIds n.parent).idxOf n.id : Int) + 1 = n.landing m := by
  have layer := z_of_layered plain distinct layered isNode
  by_cases same : m.id = n.id
  · obtain rfl := eq_of_id_eq distinct isNode' isNode same
    have kept : s.modifyNode m.id (·.setZ m.z) = s := by
      rw [modifyNode_congr distinct isNode' (g := fun k => k) (setZ_self (plain m isNode')), modifyNode_id]
    rw [kept, ← layer]
    simp [Node.landing]
  · have layer' := z_of_layered plain distinct (siblings ▸ layered) isNode'
    rw [siblings] at layer'
    obtain ⟨before, after, others, order⟩ := childIds_setZ plain distinct layered isNode isNode' siblings same
    have nodup : (before ++ m.id :: after).Nodup := others ▸ (nodup_childIds distinct n.parent).sublist List.filter_sublist
    have notBefore : m.id ∉ before := fun listed => List.disjoint_of_nodup_append nodup listed (by simp)
    have absent : n.id ∉ before ++ m.id :: after := others ▸ by simp
    have notBefore' : n.id ∉ before := fun listed => absent (List.mem_append_left _ listed)
    have listed : m.id ∈ s.childIds n.parent := siblings ▸ mem_childIds.mpr ⟨m, isNode', rfl, rfl⟩
    have place := idxOf_filter_ne (nodup_childIds distinct n.parent) same listed
    rw [others, List.idxOf_append_of_notMem notBefore, List.idxOf_cons_self, Nat.add_zero] at place
    have apart : (s.childIds n.parent).idxOf m.id ≠ (s.childIds n.parent).idxOf n.id := fun here =>
      same ((List.idxOf_inj listed).mp here)
    rw [order, Node.landing, layer, layer']
    by_cases first : n.id ≤ m.id
    · have less : n.id < m.id := lt_of_le_of_ne first (Ne.symm same)
      simp only [beside, first, decide_true, if_true, List.idxOf_append_of_notMem notBefore', List.idxOf_cons_self,
        not_lt.mpr first, less, if_false]
      split_ifs at place ⊢ <;> omega
    · have less : m.id < n.id := not_le.mp first
      simp only [beside, first, decide_false, List.idxOf_append_of_notMem notBefore', List.idxOf_cons_self,
        List.idxOf_cons_ne _ same, not_lt.mpr less.le, less, if_true, if_false, Bool.false_eq_true]
      split_ifs at place ⊢ <;> omega

/-- The layer of a sibling was written for a node: the node came to the layer where it lands, the others keep
their order, and the layers are 1, 2, … again. -/
structure Relayered (s t : Store α) (n m : Node α) : Prop where
  others : KeepsOthers n.id s t
  layers : (t.childrenOf n.parent).map Node.z = firstLayers (t.childIds n.parent).length
  lands : (t.find? n.id).map Node.z = some (n.landing m)

/-- A node that takes the layer of a sibling, and is then renumbered and reshaped with the others, is
relayered. -/
theorem relayered_of_reshaped (plain : s.IsPlain) (distinct : s.ids.Nodup) (layered : s.Layered n.parent)
    (isNode : n ∈ s.nodes) (isNode' : m ∈ s.nodes) (siblings : m.parent = n.parent)
    (reshaped : Reshaped ((s.modifyNode n.id (·.setZ m.z)).normalizeZ n.parent) t) : Relayered s t n m := by
  have plain₁ : (s.modifyNode n.id (·.setZ m.z)).IsPlain :=
    plain.modifyNode n.id fun _ plain => Node.without_plain plain .zIndex
  have links₁ : (s.modifyNode n.id (·.setZ m.z)).links = s.links := links_modifyNode fun _ => rfl
  have distinct₁ : (s.modifyNode n.id (·.setZ m.z)).ids.Nodup := (ids_congr links₁).symm ▸ distinct
  have links : t.links = s.links := reshaped.links.trans (links_normalizeZ.trans links₁)
  have distinct' : t.ids.Nodup := (ids_congr links).symm ▸ distinct
  have plain' : t.IsPlain := reshaped.isPlain plain₁.normalizeZ
  have layered' : t.Layered n.parent := reshaped.layered (layered_normalizeZ distinct₁)
  have order : ∀ parent, t.childIds parent = (s.modifyNode n.id (·.setZ m.z)).childIds parent := fun parent => by
    rw [reshaped.childIds plain₁.normalizeZ, childIds_normalizeZ plain₁ distinct₁]
  refine ⟨?_, ?_, ?_⟩
  · have others : KeepsOthers n.id s (s.modifyNode n.id (·.setZ m.z)) :=
      .modifyNode (fun _ => rfl) (fun _ plain => Node.without_plain plain .zIndex) plain distinct
    exact others.trans (.of_childIds order)
  · rw [layers_childrenOf plain' layered', childIds, List.length_map]
  · obtain ⟨k, isNode₂, sameLink⟩ := exists_link links.symm isNode
    have sameId : k.id = n.id := congrArg Link.id sameLink
    have sameParent : k.parent = n.parent := congrArg Link.parent sameLink
    rw [← sameId, find?_of_mem distinct' isNode₂, Option.map_some,
      z_of_layered plain' distinct' (sameParent ▸ layered') isNode₂, sameParent, sameId, order,
      idxOf_childIds_setZ plain distinct layered isNode isNode' siblings]

/-- Some sibling has every layer that is in use, the node itself among them. -/
theorem Layered.exists_child (layered : s.Layered parent) (low : 1 ≤ k) (high : k ≤ (s.childIds parent).length) :
    ∃ m ∈ s.nodes, m.parent = parent ∧ m.z = k := by
  have count : (s.childIds parent).length = (s.children parent).length := by
    rw [childIds_perm.length_eq, List.length_map]
  have isLayer : k ∈ firstLayers (s.children parent).length :=
    List.mem_map.mpr ⟨(k - 1).toNat, List.mem_range.mpr (by omega), by omega⟩
  obtain ⟨m, isChild, isThere⟩ := List.mem_map.mp (layered.mem_iff.mpr isLayer)
  exact ⟨m, (mem_children.mp isChild).1, (mem_children.mp isChild).2, isThere⟩

/-- What writing the layer of a sibling for a node does: the node is put on it, its siblings are renumbered, and
then what is within the node is clamped. -/
theorem ends_applyField_zIndex [Lawful α] {v : Value α} {x : α} (plain : s.IsPlain) (distinct : s.ids.Nodup)
    (layered : s.Layered n.parent) (isNode : n ∈ s.nodes) (isNode' : m ∈ s.nodes) (siblings : m.parent = n.parent)
    (reads : v.toNumber (.int 1) = .ok x) (isThere : m.z = Arith.floorHalf x) (low : 1 ≤ Arith.floorHalf x) :
    (applyField n.id "z_index" v).Ends s (fun written t => written = true ∧ Relayered s t n m)
      fun _ t => Relayered s t n m ∧ ¬(s.IsRooted ∧ s.IsMeasured) := by
  have found := find?_of_mem distinct isNode
  have written : n.setField .zIndex v = .ok (n.setZ m.z) := by
    simp only [Node.setField, reads]
    exact congrArg (Except.ok <| n.setZ ·) ((max_eq_right low).trans isThere.symm)
  refine ends_applyField_of plain found (f := .zIndex) (by decide) rfl (fun fault failed => ?_) fun k wrote => ?_
  · cases written.symm.trans failed
  · obtain rfl := Except.ok.inj (written.symm.trans wrote)
    have put : s.put (n.setZ m.z) = s.modifyNode n.id (·.setZ m.z) := by
      rw [put_eq_modifyNode (n := n.setZ m.z) distinct (id_mem_ids (n := n) isNode)]
      exact modifyNode_congr distinct isNode rfl
    rw [if_pos rfl, put]
    have clamped : s.IsRooted ∧ s.IsMeasured → (clampSubtree n.id (Value.int leastSide)).Ends
        ((s.modifyNode n.id (·.setZ m.z)).normalizeZ n.parent) (fun _ t => t.IsMeasured) fun _ _ => False := by
      rintro ⟨rooted, measured⟩
      have links : ((s.modifyNode n.id (·.setZ m.z)).normalizeZ n.parent).links = s.links :=
        links_normalizeZ.trans (links_modifyNode fun _ => rfl)
      have onLayer : (s.modifyNode n.id (·.setZ m.z)).IsMeasured :=
        measured.modifyNode n.id fun _ isMeasured => isMeasured.setZ m.z
      refine ends_clampSubtree onLayer.normalizeZ (rooted.congr links)
        (Value.isMeasure_num.mpr (Lawful.fits_ofInt (by decide))) (.inr ?_)
      rw [ids_congr links]
      exact id_mem_ids isNode
    have relayered := fun t => relayered_of_reshaped (t := t) plain distinct layered isNode isNode' siblings
    refine ((keeps_clampSubtree _).and_when clamped).mono (fun _ t both => ⟨rfl, relayered t both.1⟩) ?_
    exact fun _ t both => ⟨relayered t both.1, both.2⟩

/-- **A written layer takes effect up to one.** Take a store with distinct ids, a node whose layer and whose
siblings' layers are 1, 2, …, N, and a value that comes to one of these, which then is the layer of one of
them. Writing the value for the node leaves its siblings in order and all layers dense. The node comes to
the layer that was written unless the ids put it on the wrong side of the one that has it: upwards it comes
there where its own id is the greater one, and else to the layer below; downwards it comes there where its
own id is the smaller one, and else to the layer above. This fails only where links lead in a circle or some
measure does not fit, and then too the layers are as said. -/
theorem applyField_zIndex_lands [Lawful α] {v : Value α} {x : α} (plain : s.IsPlain) (distinct : s.ids.Nodup)
    (layered : s.Layered n.parent) (isNode : n ∈ s.nodes) (reads : v.toNumber (.int 1) = .ok x)
    (low : 1 ≤ Arith.floorHalf x) (high : Arith.floorHalf x ≤ (s.childIds n.parent).length) :
    ∃ m ∈ s.nodes, m.parent = n.parent ∧ m.z = Arith.floorHalf x ∧
      (applyField n.id "z_index" v).Ends s (fun written t => written = true ∧ Relayered s t n m)
        fun _ t => Relayered s t n m ∧ ¬(s.IsRooted ∧ s.IsMeasured) := by
  obtain ⟨m, isNode', siblings, isThere⟩ := layered.exists_child low high
  exact ⟨m, isNode', siblings, isThere, ends_applyField_zIndex plain distinct layered isNode isNode' siblings reads isThere low⟩

/-- All frames of the stacked store come to the root. -/
theorem rooted_stacked : stacked.IsRooted := by
  refine ⟨by decide, by decide, fun n member => ?_⟩
  have link : stacked.parent? n.id = some root := by
    simp only [stacked, List.mem_cons, List.not_mem_nil, or_false] at member
    rcases member with rfl | rfl | rfl <;> decide
  exact .step link .atRoot

/-- The frames of the stacked store are measured. -/
theorem measured_stacked : stacked.IsMeasured := IsNumeric.isMeasured ⟨plain_stacked, ⟨_, rfl⟩, ⟨_, rfl⟩⟩

/-- The second of three frames is written to the first layer, and comes there. -/
theorem applyField_zIndex_lands_stacked :
    ∃ t, applyField "a" "z_index" (.int 1) stacked = .ok true t ∧ (t.find? "a").map Node.z = some 1 := by
  have isLayer : Arith.floorHalf ((1 : ℤ) : ℚ) = 1 := by decide +kernel
  have known : stacked.childIds (frameOn "a" 2).parent = [("b" : Text), "a", "c"] := childIds_stacked
  obtain ⟨m, isNode, -, isThere, ends⟩ := applyField_zIndex_lands (n := frameOn "a" 2) plain_stacked (by decide)
    layered_stacked (by simp [stacked]) (show (Value.int 1 : Value ℚ).toNumber (.int 1) = .ok ((1 : ℤ) : ℚ) from rfl)
    (by rw [isLayer]) (by rw [isLayer, known]; decide)
  have isFirst : m = frameOn "b" 1 := by
    simp only [stacked, List.mem_cons, List.not_mem_nil, or_false] at isNode
    rw [isLayer] at isThere
    rcases isNode with rfl | rfl | rfl
    · rfl
    · exact absurd isThere (by decide)
    · exact absurd isThere (by decide)
  obtain ⟨_, t, ran, rfl, lands⟩ := (ends.mono (fun _ _ lands => lands) fun _ _ fails =>
    fails.2 ⟨rooted_stacked, measured_stacked⟩).ok
  exact ⟨t, ran, lands.lands.trans (by rw [isFirst]; decide)⟩

/-- The second of three frames is written to the third layer, and stays where it is. -/
theorem applyField_zIndex_stays :
    ∃ t, applyField "a" "z_index" (.int 3) stacked = .ok true t ∧ (t.find? "a").map Node.z = some 2 := by
  have isLayer : Arith.floorHalf ((3 : ℤ) : ℚ) = 3 := by decide +kernel
  have ends := ends_applyField_zIndex (n := frameOn "a" 2) (m := frameOn "c" 3) plain_stacked (by decide)
    layered_stacked (by simp [stacked]) (by simp [stacked]) rfl
    (show (Value.int 3 : Value ℚ).toNumber (.int 1) = .ok ((3 : ℤ) : ℚ) from rfl) isLayer.symm (by rw [isLayer]; decide)
  obtain ⟨_, t, ran, rfl, lands⟩ := (ends.mono (fun _ _ lands => lands) fun _ _ fails =>
    fails.2 ⟨rooted_stacked, measured_stacked⟩).ok
  exact ⟨t, ran, lands.lands.trans (by decide)⟩

end Store

end LayoutDesigner
