import LayoutDesigner.Proofs.Snapshot

/-!
# When loading ends

Clamping takes ids from a worklist until it is empty, whatever the number of steps. In a forest it
takes every node once. Where a node has the id of the root, the children of the root are children of
that node as well, and after the links are repaired that node is below the root: the worklist goes
round and never becomes empty. So loading ends unless a kept record has the root's id.
-/

namespace LayoutDesigner

open Arith

variable {α : Type} [Arith α]

namespace Store

variable {s t u : Store α} {id other : Text} {n : Node α} {queue taken rest : List Text} {least : Value α}

/-- From a queue and a store the worklist of clamping takes ids one by one until it is empty, and leaves
a store. -/
inductive Drains (least : Value α) : (queue : List Text) → Store α → (taken : List Text) → Store α → Prop where
  | empty (s : Store α) : Drains least [] s [] s
  | skip {id : Text} {rest taken : List Text} {s t : Store α} (missing : id ∉ s.ids)
      (drains : Drains least rest s taken t) : Drains least (id :: rest) s taken t
  | take {id : Text} {rest taken : List Text} {s t u : Store α} (isNode : id ∈ s.ids)
      (clamped : clampNode id least s = .ok () t) (drains : Drains least (rest ++ t.childIds id) t taken u) :
      Drains least (id :: rest) s (id :: taken) u

namespace Drains

/-- A run within some bound empties the worklist. -/
theorem of_clampQueue {bound : Nat} (ran : clampQueue least bound queue s = .ok () t) :
    ∃ taken, Drains least queue s taken t := by
  have ends : (clampQueue least bound queue).Ends s (fun _ t => ∃ taken, Drains least queue s taken t)
      fun _ _ => True := by
    clear ran
    induction bound generalizing queue s with
    | zero =>
        cases queue with
        | nil => exact ⟨[], .empty s⟩
        | cons id rest => trivial
    | succ bound ih =>
        cases queue with
        | nil => exact ⟨[], .empty s⟩
        | cons id rest =>
            unfold clampQueue
            simp only [Edit.ends_bind, Edit.ends_get]
            split
            · next isNode =>
                rw [Edit.ends_bind]
                cases clamped : clampNode id least s with
                | error fault u => exact (Edit.ends_of_error clamped).mpr trivial
                | ok _ u =>
                    rw [Edit.ends_of_ok clamped]
                    simp only [Edit.ends_bind, Edit.ends_get]
                    refine ih.mono ?_ fun _ _ _ => trivial
                    rintro _ v ⟨taken, drains⟩
                    exact ⟨id :: taken, .take (contains_iff.mp isNode) clamped drains⟩
            · next missing =>
                refine ih.mono ?_ fun _ _ _ => trivial
                rintro _ v ⟨taken, drains⟩
                exact ⟨taken, .skip (fun isNode => missing (contains_iff.mpr isNode)) drains⟩
  exact ends.returned ran

/-- A worklist that becomes empty does so within some bound. -/
theorem exists_bound (drains : Drains least queue s taken t) : ∃ bound, clampQueue least bound queue s = .ok () t := by
  induction drains with
  | empty s => exact ⟨0, rfl⟩
  | @skip id rest taken s t missing _ ih =>
      obtain ⟨bound, ran⟩ := ih
      have test : s.contains id = false := by
        rw [← Bool.not_eq_true, contains_iff]
        exact missing
      have ends : (clampQueue least (bound + 1) (id :: rest)).Ends s (fun _ u => u = t) fun _ _ => False := by
        unfold clampQueue
        simp only [Edit.ends_bind, Edit.ends_get, test, Bool.false_eq_true, if_false]
        rw [Edit.ends_of_ok ran]
      obtain ⟨_, _, ran', rfl⟩ := ends.ok
      exact ⟨_, ran'⟩
  | @take id rest taken s t u isNode clamped _ ih =>
      obtain ⟨bound, ran⟩ := ih
      have test : s.contains id := contains_iff.mpr isNode
      have ends : (clampQueue least (bound + 1) (id :: rest)).Ends s (fun _ v => v = u) fun _ _ => False := by
        unfold clampQueue
        simp only [Edit.ends_bind, Edit.ends_get, test, if_true]
        rw [Edit.ends_of_ok clamped, Edit.ends_of_ok ran]
      obtain ⟨_, _, ran', rfl⟩ := ends.ok
      exact ⟨_, ran'⟩

/-- The worklist becomes empty exactly where some bound is enough for it. -/
theorem iff_exists_bound :
    (∃ taken, Drains least queue s taken t) ↔ ∃ bound, clampQueue least bound queue s = .ok () t :=
  ⟨fun ⟨_, drains⟩ => drains.exists_bound, fun ⟨_, ran⟩ => of_clampQueue ran⟩

/-- In a forest the worklist meets nothing twice. -/
theorem sweep {base : Text} {done : List Text} (drains : Drains least queue t taken u) (forest : IsForest s)
    (reshaped : Reshaped s t) (sweep : Sweep s base done queue) : Sweep s base (done ++ taken) [] := by
  induction drains generalizing done with
  | empty => simpa using sweep
  | skip missing _ _ =>
      rw [reshaped.ids] at missing
      exact absurd sweep.next_leads.mem_ids missing
  | @take id rest taken t u v isNode clamped _ ih =>
      have reshaped' : Reshaped s u := trans_of Reshaped reshaped ((keeps_clampNode t).returned clamped)
      have distinct : u.ids.Nodup := reshaped'.ids ▸ forest.distinct
      have next := sweep.step forest.isRooted (nodup_childIds distinct id) fun child => by
        rw [mem_childIds_iff distinct, parent?_congr reshaped'.links]
      simpa using ih reshaped' next

/-- In a forest the worklist that starts with the children of the root takes every node once. -/
theorem perm_ids (drains : Drains least (s.childIds root) s taken t) (forest : IsForest s) : taken.Perm s.ids := by
  have start : Sweep s root [] (s.childIds root) :=
    .start (nodup_childIds forest.distinct root) fun child => (mem_childIds_iff forest.distinct).mp
  have ended := drains.sweep forest (refl_of Reshaped s) start
  rw [List.nil_append] at ended
  have queued : s.childIds root ⊆ taken := by
    intro child isChild
    have met : ∀ {queue taken : List Text} {s t : Store α}, Drains least queue s taken t → child ∈ queue →
        child ∈ s.ids → child ∈ taken := by
      intro queue taken s t drains
      induction drains with
      | empty => exact fun listed => absurd listed List.not_mem_nil
      | skip missing _ ih =>
          intro listed isNode
          refine ih ((List.mem_cons.mp listed).resolve_left ?_) isNode
          rintro rfl
          exact missing isNode
      | take isNode' clamped _ ih =>
          intro listed isNode
          rcases List.mem_cons.mp listed with rfl | inRest
          · exact List.mem_cons_self
          · have sameIds := Reshaped.ids ((keeps_clampNode _).returned clamped)
            exact List.mem_cons_of_mem _ (ih (List.mem_append_left _ inRest) (sameIds ▸ isNode))
    exact met drains isChild (mem_ids_of_parent? ((mem_childIds_iff forest.distinct).mp isChild))
  refine (List.perm_ext_iff_of_nodup (by simpa using ended.distinct) forest.distinct).mpr fun id => ⟨fun met => ?_, ?_⟩
  · exact (ended.below id (by simpa using met)).mem_ids
  · exact ended.mem_of_mem_ids forest.isRooted queued

end Drains

/-- Above a node that is on a circle with the root, there is always one that is queued. -/
theorem not_drains (distinct : s.ids.Nodup) (circle : s.LeadsUp root root) (reshaped : Reshaped s t)
    (queued : id ∈ queue) (above : s.LeadsUp root id) (isNode : id ∈ s.ids) : ¬Drains least queue t taken u := by
  intro drains
  induction drains generalizing id with
  | empty => exact List.not_mem_nil queued
  | skip missing _ ih =>
      refine ih reshaped ((List.mem_cons.mp queued).resolve_left ?_) above isNode
      rintro rfl
      exact missing (reshaped.ids ▸ isNode)
  | @take first rest taken t u v _ clamped _ ih =>
      have reshaped' : Reshaped s u := trans_of Reshaped reshaped ((keeps_clampNode t).returned clamped)
      rcases List.mem_cons.mp queued with rfl | inRest
      · -- The child through which the root leads up is queued now.
        have isChild : ∀ {child}, s.parent? child = some id → child ∈ rest ++ u.childIds id := by
          intro child link
          refine List.mem_append_right _ ((mem_childIds_iff (reshaped'.ids ▸ distinct)).mpr ?_)
          rwa [parent?_congr reshaped'.links]
        rcases above with link | ⟨leads, link⟩
        · exact ih reshaped' (isChild link) circle (mem_ids_of_parent? link)
        · exact ih reshaped' (isChild link) leads (mem_ids_of_parent? link)
      · exact ih reshaped' (List.mem_append_left _ inRest) above isNode

/-- The worklist that starts with the children of the root never becomes empty where the root is a
node and leads up to itself. -/
theorem not_drains_childIds (distinct : s.ids.Nodup) (circle : s.LeadsUp root root) :
    ¬Drains least (s.childIds root) s taken t := by
  have child : ∃ id, s.parent? id = some root ∧ s.LeadsUp root id := by
    rcases circle with link | ⟨leads, link⟩
    · exact ⟨root, link, .single link⟩
    · exact ⟨_, link, leads⟩
  obtain ⟨id, link, above⟩ := child
  exact not_drains distinct circle (refl_of Reshaped s) ((mem_childIds_iff distinct).mpr link) above
    (mem_ids_of_parent? link)

/-- The store without a node of the root's id. The passes of a repair over the links stop at this id, so they
do to all other nodes what they do without that node; afterwards each of these comes to the root, and
with them that node's parent. -/
def withoutRoot (s : Store α) : Store α := s.removeAll [root]

omit [Arith α]

/-- The ids are the other ones. -/
theorem ids_withoutRoot : s.withoutRoot.ids = s.ids.filter (· ≠ root) := by
  simp [withoutRoot, removeAll, ids, List.filter_map, Function.comp_def]

/-- Any other node is found as before. -/
theorem find?_withoutRoot (notRoot : id ≠ root) : s.withoutRoot.find? id = s.find? id := by
  simp only [withoutRoot, removeAll, find?, List.find?_filter]
  congr 1
  funext n
  by_cases here : n.id = id <;> simp [here, notRoot]

/-- Any other id has the same parent. -/
theorem parent?_withoutRoot (notRoot : id ≠ root) : s.withoutRoot.parent? id = s.parent? id := by
  rw [parent?, parent?, find?_withoutRoot notRoot]

/-- Cutting a link is the same without the node of the root's id, unless it is the link of this node. -/
theorem withoutRoot_cutLink : (s.cutLink id).withoutRoot = if id = root then s.withoutRoot else s.withoutRoot.cutLink id := by
  have keepsId : ∀ n : Node α, (if n.id = id then n.setParent root else n).id = n.id := fun n => by split <;> rfl
  simp only [withoutRoot, removeAll, cutLink, modifyNode, List.filter_map, Function.comp_def, keepsId]
  split
  · next isRoot =>
      congr 1
      refine (List.map_congr_left fun n member => ?_).trans (List.map_id _)
      have other : n.id ≠ id := by simpa [isRoot] using (List.mem_filter.mp member).2
      simp [other]
  · rfl

/-- A walk is the same without a node of the root's id, for it stops there. -/
theorem leadsTo_withoutRoot {target : Text} {bound : Nat} {met : List Text} :
    s.withoutRoot.leadsTo target bound met id = s.leadsTo target bound met id := by
  induction bound generalizing met id with
  | zero => rfl
  | succ bound ih =>
      rw [leadsTo, leadsTo]
      split
      · rfl
      · next goesOn =>
          rw [find?_withoutRoot (fun isRoot => goesOn (.inl isRoot))]
          simp only [ih]

/-- The test for a circle goes by the other nodes alone. -/
theorem onCycle_withoutRoot (found : s.find? n.id = some n) (notRoot : n.id ≠ root) :
    s.withoutRoot.onCycle n = s.onCycle n := by
  have unreserved : root ∉ s.withoutRoot.ids := by simp [ids_withoutRoot]
  have found' : s.withoutRoot.find? n.id = some n := (find?_withoutRoot notRoot).trans found
  rw [Bool.eq_iff_iff, onCycle_iff unreserved found', leadsUp_of_parent? (parent?_of_find? found'), onCycle,
    ← leadsTo_withoutRoot]
  have fewer : s.withoutRoot.size ≤ s.size := List.length_filter_le ..
  exact ⟨leadsTo_complete unreserved notRoot ⟨List.nodup_nil, List.nil_subset _, by simp⟩
    (by rw [List.length_nil]; omega) List.not_mem_nil, leadsTo_sound⟩

/-- A pass does to the other nodes what it does without the node of the root's id, where its test does
not look at that node. -/
theorem withoutRoot_cutWhere {broken : Store α → Node α → Bool}
    (alike : ∀ (t : Store α) n, t.find? n.id = some n → n.id ≠ root → n.parent ≠ root →
      broken t.withoutRoot n = broken t n) (ids : List Text) (s : Store α) :
    (cutWhere broken ids s).2.withoutRoot = (cutWhere broken (ids.filter (· ≠ root)) s.withoutRoot).2 := by
  induction ids generalizing s with
  | nil => rfl
  | cons id rest ih =>
      by_cases isRoot : id = root
      · have apart : ((id :: rest).filter (· ≠ root)) = rest.filter (· ≠ root) := by simp [isRoot]
        rw [apart, cutWhere]
        split
        · exact ih s
        · split
          · exact (ih (s.cutLink id)).trans (by rw [withoutRoot_cutLink, if_pos isRoot])
          · exact ih s
      · have first : ((id :: rest).filter (· ≠ root)) = id :: rest.filter (· ≠ root) := by simp [isRoot]
        rw [first, cutWhere, cutWhere, find?_withoutRoot isRoot]
        cases found : s.find? id with
        | none => exact ih s
        | some n =>
            obtain rfl := id_of_find? found
            by_cases atRoot : n.parent = root
            · simpa [atRoot] using ih s
            · simp only [alike s n found isRoot atRoot]
              split
              · exact (ih (s.cutLink n.id)).trans (by rw [withoutRoot_cutLink, if_neg isRoot])
              · exact ih s

/-- What the first two passes leave of the other nodes is what they leave where these are all. -/
theorem withoutRoot_passes :
    s.cutDangling.2.cutCycles.2.withoutRoot = s.withoutRoot.cutDangling.2.cutCycles.2 := by
  have first : s.cutDangling.2.withoutRoot = s.withoutRoot.cutDangling.2 := by
    rw [cutDangling, withoutRoot_cutWhere (fun t n _ _ notRoot => ?_), ← ids_withoutRoot]
    · rfl
    · rw [contains, contains, find?_withoutRoot notRoot]
  rw [cutCycles, withoutRoot_cutWhere (fun t n found notRoot _ => onCycle_withoutRoot found notRoot),
    ← ids_withoutRoot, first]
  rfl

/-- What is grounded without a node of the root's id is grounded with it. -/
theorem Grounded.of_withoutRoot (above : s.withoutRoot.Grounded id) : s.Grounded id := by
  induction above with
  | atRoot => exact .atRoot
  | @step child parent link _ ih =>
      have notRoot : child ≠ root := by
        rintro rfl
        have missing : root ∉ s.withoutRoot.ids := by simp [ids_withoutRoot]
        exact missing (mem_ids_of_parent? link)
      exact .step (by rwa [parent?_withoutRoot notRoot] at link) ih

/-- Where no node has the root's id, the first two passes make every node come to the root. -/
theorem grounded_passes (distinct : s.ids.Nodup) (unreserved : root ∉ s.ids) (isNode : id ∈ s.ids) :
    s.cutDangling.2.cutCycles.2.Grounded id := by
  obtain ⟨dangling, heads, twoCuts⟩ := passes_picks distinct unreserved
  refine twoCuts.grounded_of_mem unreserved (fun other dangles => ?_) (fun other isHead => ?_) (twoCuts.ids ▸ isNode)
  · exact List.mem_append_left _ ((dangling.exact other).mpr ⟨dangles.mem_ids, dangles⟩)
  · exact List.mem_append_right _ ((heads.exact other).mpr ⟨isHead.1.mem_ids, isHead⟩)

/-- The first two passes make every node come to the root, the parent of a node of the root's id too. -/
theorem grounded_of_passes (distinct : s.ids.Nodup) (isNode : root ∈ s.ids) :
    ∃ parent, s.cutDangling.2.cutCycles.2.parent? root = some parent ∧
      s.cutDangling.2.cutCycles.2.Grounded parent := by
  obtain ⟨dangling, firstCut⟩ := cutDangling_picks distinct
  have secondCut : IsCut s.cutDangling.2.cutCycles.1 s.cutDangling.2 s.cutDangling.2.cutCycles.2 :=
    isCut_cutWhere _ _
  have twoCuts := firstCut.trans secondCut
  have grounded : ∀ {id}, id ≠ root → id ∈ s.ids → s.cutDangling.2.cutCycles.2.Grounded id := by
    intro id notRoot isNode
    apply Grounded.of_withoutRoot
    rw [withoutRoot_passes]
    exact grounded_passes (ids_withoutRoot ▸ distinct.filter _) (by simp [ids_withoutRoot])
      (by simp [ids_withoutRoot, isNode, notRoot])
  by_cases listed : root ∈ s.cutDangling.1 ++ s.cutDangling.2.cutCycles.1
  · exact ⟨root, twoCuts.parent?_of_mem listed isNode, .atRoot⟩
  · obtain ⟨n, found⟩ := exists_find? isNode
    have link := parent?_of_find? found
    refine ⟨n.parent, by rw [twoCuts.parent?_of_notMem listed, link], ?_⟩
    by_cases atRoot : n.parent = root
    · exact atRoot ▸ .atRoot
    · refine grounded atRoot ?_
      by_contra missing
      exact listed (List.mem_append_left _ ((dangling.exact root).mpr ⟨isNode, n.parent, link, atRoot, missing⟩))

/-- After the third pass a node of the root's id leads up to itself. -/
theorem circle_of_passes {lifted : List Text} (distinct : s.ids.Nodup) (isNode : root ∈ s.ids)
    (isCut : IsCut lifted s.cutDangling.2.cutCycles.2 t) : t.LeadsUp root root := by
  obtain ⟨parent, link, above⟩ := grounded_of_passes distinct isNode
  by_cases listed : root ∈ lifted
  · exact .single (isCut.parent?_of_mem listed (mem_ids_of_parent? link))
  · exact (isCut.grounded above).leadsUp_root_of_child (by rw [isCut.parent?_of_notMem listed, link])

variable [Arith α]

/-- Where all measures fit, a worklist that never becomes empty uses up every bound. -/
theorem clampQueue_endless [Lawful α] (measured : s.IsMeasured) (leastMeasure : least.IsMeasure)
    (never : ∀ taken t, ¬Drains least queue s taken t) (bound : Nat) :
    ∃ t, clampQueue least bound queue s = .error .endless t := by
  cases ran : clampQueue least bound queue s with
  | error fault t => exact ⟨t, by rw [((measured_clampQueue measured leastMeasure bound queue).failure ran).2]⟩
  | ok _ t =>
      obtain ⟨taken, drains⟩ := Drains.iff_exists_bound.mpr ⟨bound, ran⟩
      exact absurd drains (never taken t)

/-- A repair of distinct ids that ended met no node of the root's id. -/
theorem unreserved_of_repair {rehomed : List Text} (distinct : s.ids.Nodup) (ran : repair least s = .ok rehomed t) :
    root ∉ s.ids := by
  intro isNode
  have sameIds : s.cutDangling.2.cutCycles.2.ids = s.ids :=
    (isCut_cutWhere _ s.cutDangling.2).ids.trans (isCut_cutWhere _ s).ids
  have ends : (repair least).Ends s (fun _ _ => False) fun _ _ => True := by
    unfold repair
    simp only [Edit.ends_bind, Edit.ends_get, Edit.ends_set]
    refine (liftFromLeaves_picks (sameIds ▸ distinct)).mono ?_ fun _ _ _ => trivial
    rintro lifted u ⟨-, isCut⟩
    have distinct' : u.ids.Nodup := isCut.ids.trans sameIds ▸ distinct
    unfold clampSubtree
    simp only [Edit.ends_bind, Edit.ends_get]
    refine Edit.ends_lift_any fun _ _ => ?_
    rw [clampStart, if_pos rfl]
    cases clamped : clampQueue least (u.size + 1) (u.childIds root) u with
    | error fault v => exact (Edit.ends_of_error clamped).mpr trivial
    | ok _ v =>
        obtain ⟨taken, drains⟩ := Drains.iff_exists_bound.mpr ⟨_, clamped⟩
        exact (not_drains_childIds distinct' (circle_of_passes distinct isNode isCut) drains).elim
  exact ends.returned ran

/-- Where all measures fit and ids are distinct, the links are repaired, and then the worklist takes
every node once or, where one of them has the root's id, never becomes empty. -/
theorem repair_drains_iff [Lawful α] (measured : s.IsMeasured) (distinct : s.ids.Nodup)
    (leastMeasure : least.IsMeasure) :
    ∃ lifted t, liftFromLeaves s.cutDangling.2.cutCycles.2.ids s.cutDangling.2.cutCycles.2 = .ok lifted t ∧
      ((∃ taken u, Drains least (t.childIds root) t taken u) ↔ root ∉ s.ids) ∧
      (∀ taken u, Drains least (t.childIds root) t taken u → taken.Perm s.ids) ∧
      (root ∈ s.ids → ∃ u, repair least s = .error .endless u) := by
  have measured₂ : s.cutDangling.2.cutCycles.2.IsMeasured := (measured.cutWhere s.ids).cutWhere _
  have sameIds : s.cutDangling.2.cutCycles.2.ids = s.ids :=
    (isCut_cutWhere _ s.cutDangling.2).ids.trans (isCut_cutWhere _ s).ids
  obtain ⟨lifted, t, ran, isMeasured, picks, isCut⟩ :=
    ((ends_liftFromLeaves measured₂ s.cutDangling.2.cutCycles.2.ids).and
      (liftFromLeaves_picks (sameIds ▸ distinct))).mono (fun _ _ both => both) (fun _ _ both => both.1) |>.ok
  have idsOf : t.ids = s.ids := isCut.ids.trans sameIds
  have never : root ∈ s.ids → ∀ taken u, ¬Drains least (t.childIds root) t taken u := fun isNode _ _ =>
    not_drains_childIds (idsOf ▸ distinct) (circle_of_passes distinct isNode isCut)
  refine ⟨lifted, t, ran, ⟨fun ⟨taken, u, drains⟩ isNode => never isNode taken u drains, fun unreserved => ?_⟩,
    fun taken u drains => ?_, fun isNode => ?_⟩
  · have passes := rehomed_of_passes distinct unreserved picks isCut
    obtain ⟨_, u, clamped, -⟩ := (ends_clampSubtree isMeasured passes.forest.isRooted leastMeasure (.inl rfl)).ok
    have swept : (clampSubtree root least).Ends t (fun _ v => v = u) fun _ _ => False :=
      (Edit.ends_of_ok clamped).mpr rfl
    unfold clampSubtree at swept
    simp only [Edit.ends_bind, Edit.ends_get, checkAllLayers_plain isMeasured.isPlain, Edit.ends_lift] at swept
    obtain ⟨_, v, ran', -⟩ := (swept.1 () trivial).ok
    rw [clampStart, if_pos rfl] at ran'
    obtain ⟨taken, drains⟩ := Drains.iff_exists_bound.mpr ⟨_, ran'⟩
    exact ⟨taken, v, drains⟩
  · have unreserved : root ∉ s.ids := fun isNode => never isNode taken u drains
    exact idsOf ▸ drains.perm_ids (rehomed_of_passes distinct unreserved picks isCut).forest
  · obtain ⟨u, endless⟩ := clampQueue_endless isMeasured leastMeasure (never isNode) (t.size + 1)
    have ends : (repair least).Ends s (fun _ _ => False) fun fault _ => fault = .endless := by
      unfold repair
      simp only [Edit.ends_bind, Edit.ends_get, Edit.ends_set]
      rw [Edit.ends_of_ok ran]
      unfold clampSubtree
      simp only [Edit.ends_bind, Edit.ends_get]
      refine Edit.ends_lift_ok (checkAllLayers_plain isMeasured.isPlain) ?_
      rw [clampStart, if_pos rfl, Edit.ends_of_error endless]
    cases ran : repair least s with
    | ok _ u => exact (ends.returned ran).elim
    | error fault u => exact ⟨u, by rw [ends.failure ran]⟩

end Store

namespace Snapshot

variable {data : Value α} {canvas : Value α × Value α} {fallback : Project α} {least : Value α} {depth : Nat}

/-- What is read gives no node of the root's id, since the repair ended. -/
theorem unreserved_of_read {loaded : Loaded α} (read : Snapshot.read data canvas fallback least depth = .ok loaded) :
    Unreserved depth data := by
  obtain ⟨nodes, isRead, repaired, -, -⟩ := read_ok read
  rintro kept isKept isNode
  obtain rfl := Except.ok.inj (isRead.symm.trans isKept)
  have distinct : Store.ids { canvasW := canvas.1, canvasH := canvas.2, nodes } |>.Nodup := (readRecords_ok isRead).1
  exact Store.unreserved_of_repair distinct repaired isNode

/-- What a repair fails with, reading fails with. -/
theorem read_of_repair_error {nodes : List (Node α)} {dropped : List Text} {fault : Fault} {t : Store α}
    (accepted : Schema.snapshotProblems data = [])
    (isRead : readRecords depth [] 0 (recordsOf data) = .ok (nodes, dropped))
    (repaired : Store.repair least { canvasW := canvas.1, canvasH := canvas.2, nodes } = .error fault t) :
    Snapshot.read data canvas fallback least depth = .error fault := by
  rw [read_of_accepted accepted, isRead]
  change (Edit.answer (Store.repair least { canvasW := canvas.1, canvasH := canvas.2, nodes }) >>= _) = _
  rw [repaired]
  rfl

/-- **When loading ends.** Let a document be accepted and its records be read. Then the links of the
nodes are repaired, and the worklist that clamps everything becomes empty exactly where no node has the
root's id. Where it does, it has taken each node once; where it does not, loading has no end. -/
theorem worklist_drains_iff [Lawful α] (data : Value α) (canvas : Value α × Value α) (fallback : Project α)
    (least : Value α) (depth : Nat) (canvasW : canvas.1.IsMeasure) (canvasH : canvas.2.IsMeasure)
    (leastMeasure : least.IsMeasure) (accepted : Schema.snapshotProblems data = []) (records : List (Value α))
    (found : data.get? "nodes" = some (.arr records)) (nodes : List (Node α)) (dropped : List Text)
    (isRead : readRecords depth [] 0 records = .ok (nodes, dropped)) :
    let s : Store α := { canvasW := canvas.1, canvasH := canvas.2, nodes }
    ∃ lifted t, Store.liftFromLeaves s.cutDangling.2.cutCycles.2.ids s.cutDangling.2.cutCycles.2 = .ok lifted t ∧
      ((∃ taken u, Store.Drains least (t.childIds root) t taken u) ↔ root ∉ nodes.map Node.id) ∧
      (∀ taken u, Store.Drains least (t.childIds root) t taken u → taken.Perm (nodes.map Node.id)) ∧
      (root ∈ nodes.map Node.id → Snapshot.read data canvas fallback least depth = .error .endless) := by
  intro s
  obtain ⟨distinct, known⟩ := readRecords_ok isRead
  obtain ⟨lifted, t, ran, drains, once, endless⟩ :=
    Store.repair_drains_iff (measured_readRecords canvasW canvasH isRead) distinct leastMeasure
  refine ⟨lifted, t, ran, drains, once, fun isNode => ?_⟩
  obtain ⟨u, repaired⟩ := endless isNode
  exact read_of_repair_error accepted (by rw [recordsOf, found, isRead]) repaired

/-- The records of a frame of some id and of a label in it. -/
def framed (id : Text) : List (Value Number) :=
  [.obj [("id", .str id), ("type", .str "Frame")],
    .obj [("id", .str "label"), ("type", .str "TextLabel"), ("parentId", .str id)]]

/-- With the root's id the frame is below itself, and loading it never ends. -/
theorem worklist_drains_iff_framed :
    Schema.snapshotProblems (.obj [("nodes", .arr (framed root))]) = [] ∧
      Snapshot.read (.obj [("nodes", .arr (framed root))]) (.int 980, .int 620) {} (.int leastSide) =
        .error .endless := by
  have fits : ∀ n : Int, n.natAbs ≤ 2 ^ 53 → (Value.int n : Value Number).IsMeasure := fun _ small =>
    Value.isMeasure_num.mpr (Lawful.fits_ofInt small)
  have accepted : Schema.snapshotProblems (.obj [("nodes", .arr (framed root))]) = [] := by decide +kernel
  have ids : (readRecords usualDepth [] 0 (framed root)).toOption.map (fun kept => kept.1.map Node.id) =
      some [root, "label"] := by decide +kernel
  refine ⟨accepted, ?_⟩
  cases isRead : readRecords usualDepth [] 0 (framed root) with
  | error fault =>
      rw [isRead] at ids
      cases ids
  | ok kept =>
      rw [isRead] at ids
      have isNode : root ∈ kept.1.map Node.id := by
        rw [show kept.1.map Node.id = [root, "label"] from Option.some.inj ids]
        exact List.mem_cons_self
      obtain ⟨lifted, t, -, -, -, endless⟩ := worklist_drains_iff (.obj [("nodes", .arr (framed root))])
        (.int 980, .int 620) {} (.int leastSide) usualDepth (fits 980 (by decide)) (fits 620 (by decide))
        (fits leastSide (by decide)) accepted _ rfl kept.1 kept.2 isRead
      exact endless isNode

end Snapshot

end LayoutDesigner
