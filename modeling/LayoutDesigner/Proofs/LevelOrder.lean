import LayoutDesigner.Proofs.DrawOrder

/-!
# Level by level

The walk that queues the children of each id it meets becomes empty on every graph of links, since each id is
met once and queues its children once. Of what comes to the root nothing is missing, and the queue never spans
more than two levels: so the walk comes level by level, which puts every parent before its children and leaves
siblings as they are drawn. The script is written in this order, where the parent of each node has been written.
-/

namespace LayoutDesigner.Script

open Store

variable {α : Type} [Arith α] {s : Store α} {id other : Text} {seen queue rest order : List Text}

/-- Walking a queue until it is empty, without a bound: an id that was met is passed, another one is met and
its children are queued. -/
inductive Walks (s : Store α) : (seen queue order : List Text) → Prop
  | empty {seen : List Text} : Walks s seen [] seen
  | pass {seen queue order : List Text} {id : Text} (again : id ∈ seen) (goesOn : Walks s seen queue order) :
      Walks s seen (id :: queue) order
  | meet {seen queue order : List Text} {id : Text} (fresh : id ∉ seen)
      (goesOn : Walks s (seen ++ [id]) (queue ++ s.childIds id) order) : Walks s seen (id :: queue) order

/-- No id is met twice. -/
theorem Walks.nodup (walks : Walks s seen queue order) (distinct : seen.Nodup) : order.Nodup := by
  induction walks with
  | empty => exact distinct
  | pass _ _ ih => exact ih distinct
  | meet fresh _ ih => exact ih (distinct.append (List.nodup_singleton _) (List.disjoint_singleton.mpr fresh))

/-- The nodes that are still to be queued: those whose parent has not been met. -/
def pending (s : Store α) (seen : List Text) : Nat := s.nodes.countP fun n => n.parent ∉ seen

/-- Meeting an id queues what is no longer pending. -/
theorem pending_append (fresh : id ∉ seen) :
    pending s (seen ++ [id]) + (s.childIds id).length = pending s seen := by
  rw [childIds_perm.length_eq, List.length_map, children, ← List.countP_eq_length_filter, pending, pending]
  -- A node counts on the left as pending or as a child of `id`, and never as both.
  induction s.nodes with
  | nil => rfl
  | cons n rest ih =>
      simp only [List.countP_cons, List.mem_append, List.mem_singleton, not_or] at ih ⊢
      by_cases isChild : n.parent = id
      · simp only [isChild, fresh, not_false_eq_true, not_true, and_false, decide_true, decide_false, if_true,
          Bool.false_eq_true, if_false]
        omega
      · simp only [isChild, not_false_eq_true, and_true, decide_false, Bool.false_eq_true, if_false]
        omega

/-- The walk becomes empty: an entry is passed, or it makes room for as many as it queues. -/
theorem walks_walk {bound : Nat} (enough : queue.length + pending s seen ≤ bound) :
    Walks s seen queue (walk s bound seen queue) := by
  induction bound generalizing seen queue with
  | zero =>
      obtain rfl : queue = [] := List.length_eq_zero_iff.mp (by omega)
      exact .empty
  | succ bound ih =>
      cases queue with
      | nil => exact .empty
      | cons id rest =>
          rw [List.length_cons] at enough
          rw [walk]
          split
          · next again => exact .pass (List.elem_iff.mp again) (ih (by omega))
          · next fresh =>
              rw [List.elem_iff] at fresh
              have same := pending_append (s := s) fresh
              refine .meet fresh (ih ?_)
              rw [List.length_append]
              omega

/-- The order of levels is what the queue gives from the children of the root on. -/
theorem walks_levelOrder (s : Store α) : Walks s [] (s.childIds root) (levelOrder s) := by
  refine walks_walk ?_
  have first : (s.childIds root).length ≤ s.size := by
    rw [childIds_perm.length_eq, List.length_map]
    exact List.length_filter_le ..
  have few : pending s [] ≤ s.size := List.countP_le_length
  omega

/-- What is met and queued comes level by level, siblings as they are drawn, and the queue spans two levels. -/
structure InLevels (s : Store α) (seen queue : List Text) : Prop where
  levels : (seen ++ queue).Pairwise fun id other => s.depthOf id ≤ s.depthOf other
  siblings : (seen ++ queue).Pairwise s.DrawnBefore
  span : ∀ id ∈ queue, ∀ other ∈ queue, s.depthOf other ≤ s.depthOf id + 1

section

variable (plain : s.IsPlain) (distinct : s.ids.Nodup) (unreserved : root ∉ s.ids)

include plain distinct unreserved

/-- Before the walk nothing is listed, and the children of the root are waiting. -/
theorem InLevels.start : InLevels s [] (s.childIds root) := by
  have top : ∀ id ∈ s.childIds root, s.depthOf id = 0 := fun id isChild => by
    rw [depthOf_of_parent? unreserved .atRoot ((mem_childIds_iff distinct).mp isChild), level_root]
  refine ⟨List.pairwise_of_forall_mem_list fun id listed _ _ => ?_, childIds_sorted plain distinct root,
    fun _ _ other listed => ?_⟩
  · rw [top id listed]
    exact Nat.zero_le _
  · rw [top other listed]
    exact Nat.zero_le _

/-- The children of the next id are on the level below it, which no id in the queue is beyond, and they are no
siblings of what is known. -/
theorem InLevels.step (sweep : Sweep s root seen (id :: rest)) (inLevels : InLevels s seen (id :: rest)) :
    InLevels s (seen ++ [id]) (rest ++ s.childIds id) := by
  have split : seen ++ [id] ++ (rest ++ s.childIds id) = seen ++ id :: rest ++ s.childIds id := by simp
  have leads := sweep.next_leads
  have notRoot : id ≠ root := fun isRoot => unreserved (isRoot ▸ leads.mem_ids)
  have below : ∀ child ∈ s.childIds id, s.depthOf child = s.depthOf id + 1 := fun child isChild => by
    rw [depthOf_of_parent? unreserved (.of_leadsUp_root leads) ((mem_childIds_iff distinct).mp isChild),
      level_of_ne notRoot]
  have levels := List.pairwise_append.mp inLevels.levels
  have beyond : ∀ other ∈ rest, s.depthOf id ≤ s.depthOf other := (List.pairwise_cons.mp levels.2.1).1
  have upTo : ∀ other ∈ seen ++ id :: rest, s.depthOf other ≤ s.depthOf id + 1 := by
    intro other known
    rcases List.mem_append.mp known with isMet | isQueued
    · exact (levels.2.2 other isMet id List.mem_cons_self).trans (Nat.le_succ _)
    · exact inLevels.span id List.mem_cons_self other isQueued
  refine ⟨?_, ?_, ?_⟩
  · rw [split, List.pairwise_append]
    refine ⟨inLevels.levels, List.pairwise_of_forall_mem_list fun child isChild other isChild' => ?_,
      fun other known child isChild => ?_⟩
    · rw [below child isChild, below other isChild']
    · rw [below child isChild]
      exact upTo other known
  · rw [split, List.pairwise_append]
    refine ⟨inLevels.siblings, childIds_sorted plain distinct id, fun other known child isChild n m found found' same => ?_⟩
    -- A sibling of the child is queued with it, and `id` has not been met before.
    have link := (mem_childIds_iff distinct).mp isChild
    rw [parent?_of_find? found', Option.some_inj] at link
    exact (sweep.fresh notRoot ((parent?_of_find? found).trans (congrArg some (same.trans link))) known).elim
  · intro first queued other queued'
    have bounds : ∀ {other}, other ∈ rest ++ s.childIds id →
        s.depthOf id ≤ s.depthOf other ∧ s.depthOf other ≤ s.depthOf id + 1 := by
      intro other queued
      rcases List.mem_append.mp queued with isQueued | isChild
      · exact ⟨beyond other isQueued, upTo other (List.mem_append_right _ (List.mem_cons_of_mem _ isQueued))⟩
      · rw [below other isChild]
        exact ⟨Nat.le_succ _, le_rfl⟩
    exact (bounds queued').2.trans (Nat.succ_le_succ (bounds queued).1)

/-- The whole order of levels is in levels. -/
theorem levelOrder_inLevels : InLevels s (levelOrder s) [] :=
  (levelOrder_induct distinct unreserved (.start plain distinct unreserved)
    fun sweep inLevels => inLevels.step plain distinct unreserved sweep).2

/-- The order of levels lists each node of the tree once. -/
theorem isTreeOrder_levelOrder : s.IsTreeOrder (levelOrder s) := by
  obtain ⟨sweep, first, queued⟩ := levelOrder_parentsFirst distinct unreserved
  refine ⟨fun id => ⟨fun met => ?_, sweep.mem_of_leadsUp_root distinct queued⟩, by simpa using sweep.distinct, first,
    by simpa using (levelOrder_inLevels plain distinct unreserved).siblings⟩
  exact sweep.below id (by simpa using met)

end

/-- The script is written level by level, where the parent of each node has been written. -/
structure WritesLevels (s : Store α) : Prop where
  /-- Just what comes to the root is met, each node once, after its parent and siblings from the lowest layer
  up. -/
  tree : s.IsTreeOrder (levelOrder s)
  /-- The same nodes are drawn. -/
  drawn : (levelOrder s).Perm s.paintOrder
  /-- No node comes before one that has fewer nodes above it. -/
  levels : (levelOrder s).Pairwise fun id other => s.depthOf id ≤ s.depthOf other
  /-- Once the nodes before it are written, the parent of a node has been met and the node has not. So it is
  written at once, whatever would write its parent. -/
  atOnce : ∀ before id after, levelOrder s = before ++ id :: after →
    let done := before.foldl (write s (s.size + 1)) ⟨[root], []⟩
    (∃ n, s.find? id = some n ∧ n.parent ∈ done.met) ∧
      ∀ above, writeWith s above done id = ⟨id :: done.met, done.order ++ [id]⟩
  /-- So the nodes are written in the order in which they are met. -/
  written : writingOrder s = levelOrder s

/-- **The order of writing is a complete breadth-first order, and no node is written from within another.** On
every store the walk level by level ends and meets no id twice. Where ids are distinct, none is the root's and
values have their types, it meets exactly the nodes whose parents lead to the root, which are those that are
drawn, with depths that do not decrease, every node after its parent and siblings by layer and id. While the
script is written in this order, each node's parent has been met when the node is reached, so nothing is left
to write first, however deep the tree is. -/
theorem writesLevels (s : Store α) :
    (Walks s [] (s.childIds root) (levelOrder s) ∧ (levelOrder s).Nodup) ∧
      (s.IsPlain → s.ids.Nodup → root ∉ s.ids → WritesLevels s) := by
  have walks := walks_levelOrder s
  refine ⟨⟨walks, walks.nodup List.nodup_nil⟩, fun plain distinct unreserved => ?_⟩
  have tree := isTreeOrder_levelOrder plain distinct unreserved
  refine ⟨tree, tree.perm (isTreeOrder_paintOrder distinct unreserved plain), ?_, ?_,
    writingOrder_eq_of_distinct distinct unreserved⟩
  · simpa using (levelOrder_inLevels plain distinct unreserved).levels
  · intro before id after split
    have upTo : levelOrder s = (before ++ [id]) ++ after := by simp [split]
    have first : ParentsFirst s (before ++ [id]) := (upTo ▸ tree.parentsFirst).of_append
    have nodup : (before ++ [id]).Nodup := (List.nodup_append.mp (upTo ▸ tree.distinct)).1
    rw [foldl_write unreserved (List.nodup_append.mp nodup).1 first.of_append]
    obtain ⟨fresh, n, found, parentMet⟩ := parent_met_of_first unreserved nodup first
    exact ⟨⟨n, found, parentMet⟩, fun above => writeWith_of_met above found fresh parentMet⟩

/-- The label in a frame comes after both frames on the canvas. Frames inside each other are not written. -/
theorem writesLevels_straying : WritesLevels straying ∧ writingOrder straying = [("back" : Text), "front", "held"] := by
  have writes := (writesLevels straying).2 plain_straying distinct_straying (by decide)
  refine ⟨writes, writes.written.trans ?_⟩
  obtain ⟨top, front, back, held⟩ := childIds_straying
  change walk straying 13 [] (straying.childIds root) = _
  have apart : ("front" : Text) ≠ "back" ∧ ("held" : Text) ≠ "back" ∧ ("held" : Text) ≠ "front" := by decide
  simp [walk, top, front, back, held, apart]

end LayoutDesigner.Script
