import LayoutDesigner.Proofs.Reshape

/-!
# Going down a forest level by level

A sweep takes ids from a queue one by one and queues the children of each. In a forest it meets no id
twice, so it ends after as many steps as there are nodes, and it comes to everything below the ids
that it started with.
-/

namespace LayoutDesigner.Store

variable {α : Type} {s t : Store α} {id base child parent : Text} {n : Node α}
  {done rest queue children : List Text}

/-- Ids that were met and ids that are queued, going down from the children of `base`. -/
structure Sweep (s : Store α) (base : Text) (done queue : List Text) : Prop where
  distinct : (done ++ queue).Nodup
  linked : ∀ id ∈ done ++ queue, ∃ parent, s.parent? id = some parent ∧ (parent = base ∨ parent ∈ done)
  below : ∀ id ∈ done ++ queue, s.LeadsUp id base
  closed : ∀ id ∈ done, ∀ child, s.parent? child = some id → child ∈ done ++ queue

namespace Sweep

/-- Some children of one parent. -/
theorem start (distinct : queue.Nodup) (linked : ∀ id ∈ queue, s.parent? id = some base) :
    Sweep s base [] queue where
  distinct := distinct
  linked id member := ⟨base, linked id member, .inl rfl⟩
  below id member := .single (linked id member)
  closed := by simp

/-- What is done and what is waiting are no more than there are nodes. -/
theorem length_le (sweep : Sweep s base done queue) : done.length + queue.length ≤ s.size := by
  rw [← List.length_append, ← length_ids]
  refine (List.subperm_of_subset sweep.distinct fun id member => ?_).length_le
  exact (sweep.below id member).mem_ids

/-- What is met next is below what the sweep goes down from. -/
theorem next_leads (sweep : Sweep s base done (id :: rest)) : s.LeadsUp id base :=
  sweep.below id (List.mem_append_right _ List.mem_cons_self)

/-- What is met next was not met before. -/
theorem next_notMem (sweep : Sweep s base done (id :: rest)) : id ∉ done := fun isDone =>
  (List.nodup_append.mp sweep.distinct).2.2 id isDone id List.mem_cons_self rfl

/-- In a tree no id is what the sweep goes down from. -/
theorem next_ne (rooted : IsRooted s) (sweep : Sweep s base done (id :: rest)) : id ≠ base := by
  rintro rfl
  exact rooted.not_leadsUp_self sweep.next_leads

/-- The children of the next id were not queued before, as none is what the sweep goes down from. -/
theorem fresh (sweep : Sweep s base done (id :: rest)) (notBase : id ≠ base) (link : s.parent? child = some id) :
    child ∉ done ++ id :: rest := by
  intro known
  obtain ⟨parent, link', isKnown⟩ := sweep.linked child known
  rw [link, Option.some_inj] at link'
  rcases isKnown with isBase | isDone
  · exact notBase (link'.trans isBase)
  · exact sweep.next_notMem (link' ▸ isDone)

/-- The next id with its children. -/
theorem step_of_ne (sweep : Sweep s base done (id :: rest)) (notBase : id ≠ base) (distinct : children.Nodup)
    (exact : ∀ child, child ∈ children ↔ s.parent? child = some id) :
    Sweep s base (done ++ [id]) (rest ++ children) := by
  have split : done ++ [id] ++ (rest ++ children) = done ++ id :: rest ++ children := by simp
  refine ⟨?_, ?_, ?_, ?_⟩
  · rw [split, List.nodup_append]
    exact ⟨sweep.distinct, distinct, fun known isKnown child isChild same =>
      sweep.fresh notBase ((exact child).mp isChild) (same ▸ isKnown)⟩
  · intro other member
    rw [split, List.mem_append] at member
    rcases member with known | isChild
    · obtain ⟨parent, link, isKnown⟩ := sweep.linked other known
      exact ⟨parent, link, isKnown.imp_right (List.mem_append_left _)⟩
    · exact ⟨id, (exact other).mp isChild, .inr (List.mem_append_right _ List.mem_cons_self)⟩
  · intro other member
    rw [split, List.mem_append] at member
    rcases member with known | isChild
    · exact sweep.below other known
    · exact .head ((exact other).mp isChild) sweep.next_leads
  · intro other isDone child link
    rw [split, List.mem_append]
    rcases List.mem_append.mp isDone with before | isLast
    · exact .inl (sweep.closed other before child link)
    · rw [List.mem_singleton.mp isLast] at link
      exact .inr ((exact child).mpr link)

/-- A sweep goes on with the children of its first waiting node at the end. -/
theorem step (rooted : IsRooted s) (sweep : Sweep s base done (id :: rest)) (distinct : children.Nodup)
    (exact : ∀ child, child ∈ children ↔ s.parent? child = some id) :
    Sweep s base (done ++ [id]) (rest ++ children) :=
  sweep.step_of_ne (sweep.next_ne rooted) distinct exact

/-- A sweep that has ended has come to everything below what it has met. -/
theorem complete (sweep : Sweep s base done []) (met : id ∈ done) (leads : s.LeadsUp child id) :
    child ∈ done := by
  induction leads using Relation.TransGen.head_induction_on with
  | @single child link => simpa using sweep.closed id met child link
  | @head child parent link _ ih => simpa using sweep.closed parent ih child link

end Sweep

variable [Arith α]

/-- The children of a parent are what has it for a parent. -/
theorem mem_childIds_iff (distinct : s.ids.Nodup) :
    child ∈ s.childIds parent ↔ s.parent? child = some parent := by
  rw [mem_childIds]
  constructor
  · rintro ⟨n, isNode, rfl, rfl⟩
    exact parent?_of_mem distinct isNode
  · intro link
    obtain ⟨n, found⟩ := exists_find? (mem_ids_of_parent? link)
    rw [parent?_of_find? found, Option.some_inj] at link
    exact ⟨n, mem_of_find? found, id_of_find? found, link⟩

/-- The children of a parent are listed once. -/
theorem nodup_childIds (distinct : s.ids.Nodup) (parent : Text) :
    (s.childIds parent).Nodup :=
  childIds_perm.nodup_iff.mpr (distinct.sublist (List.filter_sublist.map _))

/-- A sweep from the root that has ended has come to every node that comes to the root. -/
theorem Sweep.mem_of_leadsUp_root (sweep : Sweep s root done []) (distinct : s.ids.Nodup)
    (queued : s.childIds root ⊆ done) (leads : s.LeadsUp id root) : id ∈ done := by
  induction leads using Relation.TransGen.head_induction_on with
  | single link => exact queued ((mem_childIds_iff distinct).mpr link)
  | @head child parent link _ ih => simpa using sweep.closed parent ih child link

/-- A sweep that started with the children of the root and has ended did all nodes. -/
theorem Sweep.mem_of_mem_ids (sweep : Sweep s root done []) (rooted : IsRooted s)
    (queued : s.childIds root ⊆ done) (isNode : id ∈ s.ids) : id ∈ done :=
  sweep.mem_of_leadsUp_root rooted.distinct queued (rooted.leadsUp_root isNode)

/-- Clamping a queue comes to what is within the queued ids. What holds of the ids that were clamped,
and is kept by clamping one more, holds in the end of all of them. -/
theorem ends_clampQueue {least : Value α} (holds : List Text → Store α → Prop)
    {failed : Fault → Store α → Prop} (rooted : IsRooted s)
    (step : ∀ {done id rest t}, Sweep s base done (id :: rest) → Reshaped s t → holds done t →
      (clampNode id least).Ends t (fun _ u => holds (done ++ [id]) u) failed)
    {bound : Nat} (sweep : Sweep s base done queue) (reshaped : Reshaped s t) (soFar : holds done t)
    (enough : s.size ≤ bound + done.length) :
    (clampQueue least bound queue).Ends t
      (fun _ u => ∃ all, Sweep s base (done ++ all) [] ∧ queue.Sublist all ∧
        (∀ id ∈ all, ∃ top ∈ queue, s.IsWithin id top) ∧ holds (done ++ all) u)
      failed := by
  induction bound generalizing done queue t with
  | zero =>
      cases queue with
      | nil => exact ⟨[], by simpa using sweep, .slnil, by simp, by simpa using soFar⟩
      | cons id rest =>
          have few := sweep.length_le
          rw [List.length_cons] at few
          omega
  | succ bound ih =>
      cases queue with
      | nil => exact ⟨[], by simpa using sweep, .slnil, by simp, by simpa using soFar⟩
      | cons id rest =>
          have isNode : t.contains id := by
            rw [contains_iff, reshaped.ids]
            exact sweep.next_leads.mem_ids
          unfold clampQueue
          simp only [Edit.ends_bind, Edit.ends_get, isNode, if_true]
          refine ((step sweep reshaped soFar).and (keeps_clampNode t)).mono ?_ fun _ _ both => both.1
          rintro _ u ⟨soFar', reshaped'⟩
          have reshapedAll : Reshaped s u := trans_of Reshaped reshaped reshaped'
          have sameParent : u.parent? = s.parent? := parent?_congr reshapedAll.links
          have distinct : u.ids.Nodup := reshapedAll.ids ▸ rooted.distinct
          have isChild : ∀ child, child ∈ u.childIds id ↔ s.parent? child = some id := fun child => by
            rw [mem_childIds_iff distinct, sameParent]
          have sweep' := sweep.step rooted (nodup_childIds distinct _) isChild
          refine (ih sweep' reshapedAll soFar' ?_).mono ?_ fun _ _ fails => fails
          · rw [List.length_append, List.length_singleton]
            omega
          · rintro _ v ⟨all, ended, queued, within, holdsAll⟩
            have queuedRest : rest.Sublist all := (List.sublist_append_left ..).trans queued
            refine ⟨id :: all, by simpa using ended, queuedRest.cons_cons id, fun other met => ?_,
              by simpa using holdsAll⟩
            rcases List.mem_cons.mp met with rfl | inAll
            · exact ⟨other, List.mem_cons_self, .refl _⟩
            · obtain ⟨top, isQueued, inside⟩ := within other inAll
              rcases List.mem_append.mp isQueued with inRest | isNew
              · exact ⟨top, List.mem_cons_of_mem _ inRest, inside⟩
              · exact ⟨id, List.mem_cons_self, inside.step ((isChild top).mp isNew)⟩

/-- Where clamping starts, going down comes to nodes: to what is below `base`. -/
theorem exists_sweep (distinct : s.ids.Nodup) (known : id = root ∨ id ∈ s.ids) :
    ∃ base, Sweep s base [] (s.clampStart id) ∧
      (id = root ∧ base = root ∨ id ≠ root ∧ s.parent? id = some base) := by
  rw [clampStart]
  split
  · next isRoot =>
      exact ⟨root, .start (nodup_childIds distinct root) fun child member =>
        (mem_childIds_iff distinct).mp member, .inl ⟨isRoot, rfl⟩⟩
  · next notRoot =>
      obtain ⟨n, found⟩ := exists_find? (known.resolve_left notRoot)
      have link := parent?_of_find? found
      refine ⟨n.parent, .start (List.nodup_singleton id) fun child member => ?_, .inr ⟨notRoot, link⟩⟩
      rwa [List.mem_singleton.mp member]

/-- From where clamping starts, a sweep that has ended has met what is within the node, and no more. -/
theorem Sweep.mem_iff_isWithin {all : List Text} (rooted : IsRooted s) (sweep : Sweep s base all [])
    (apart : id = root ∧ base = root ∨ id ≠ root ∧ s.parent? id = some base)
    (queued : (s.clampStart id).Sublist all)
    (within : ∀ other ∈ all, ∃ top ∈ s.clampStart id, s.IsWithin other top) :
    child ∈ all ↔ child ∈ s.ids ∧ s.IsWithin child id := by
  have isNode : child ∈ all → child ∈ s.ids := fun met => (sweep.below child (by simpa using met)).mem_ids
  rw [clampStart] at queued within
  rcases apart with ⟨rfl, rfl⟩ | ⟨notRoot, -⟩
  · rw [if_pos rfl] at queued within
    constructor
    · intro met
      obtain ⟨top, isTop, inside⟩ := within child met
      exact ⟨isNode met, inside.step ((mem_childIds_iff rooted.distinct).mp isTop)⟩
    · exact fun ⟨isNode, _⟩ => sweep.mem_of_mem_ids rooted queued.subset isNode
  · rw [if_neg notRoot] at queued within
    have met : id ∈ all := queued.subset (List.mem_singleton_self id)
    constructor
    · intro met
      obtain ⟨top, isTop, inside⟩ := within child met
      exact ⟨isNode met, List.mem_singleton.mp isTop ▸ inside⟩
    · rintro ⟨-, rfl | leads⟩
      · exact met
      · exact sweep.complete met leads

/-- Clamping a subtree: what holds at the start, and is kept by clamping one more id, holds in the end
of all ids within the node. -/
theorem ends_clampSubtree_of {least : Value α} (holds : List Text → Store α → Prop)
    {failed : Fault → Store α → Prop} (rooted : IsRooted s) (plain : s.IsPlain)
    (known : id = root ∨ id ∈ s.ids) (start : holds [] s)
    (step : ∀ {base done next rest t},
      (id = root ∧ base = root ∨ id ≠ root ∧ s.parent? id = some base) →
      Sweep s base done (next :: rest) → Reshaped s t → holds done t →
      (clampNode next least).Ends t (fun _ u => holds (done ++ [next]) u) failed) :
    (clampSubtree id least).Ends s
      (fun _ t => ∃ all, all.Nodup ∧ (∀ other, other ∈ all ↔ other ∈ s.ids ∧ s.IsWithin other id) ∧
        holds all t) failed := by
  obtain ⟨base, sweep, apart⟩ := exists_sweep rooted.distinct known
  unfold clampSubtree
  simp only [Edit.ends_bind, Edit.ends_get]
  refine Edit.ends_lift_ok (checkAllLayers_plain plain) ?_
  refine (ends_clampQueue holds rooted (fun sweep reshaped soFar => step apart sweep reshaped soFar) sweep
    (refl_of Reshaped s) start (by rw [List.length_nil]; omega)).mono ?_ fun _ _ fails => fails
  rintro _ t ⟨all, ended, queued, within, holdsAll⟩
  rw [List.nil_append] at ended holdsAll
  exact ⟨all, by simpa using ended.distinct,
    fun other => ended.mem_iff_isWithin rooted apart queued within, holdsAll⟩

end LayoutDesigner.Store
