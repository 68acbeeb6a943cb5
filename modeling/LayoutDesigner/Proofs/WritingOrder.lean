import LayoutDesigner.Script.Order
import LayoutDesigner.Proofs.Sweep

/-!
# The order in which nodes are written

The walk level by level comes to every node that is below the root once, and to each after its parent.
So nothing is left to write first: the nodes are written in the order of the walk. In a forest these are
all nodes.
-/

namespace LayoutDesigner.Script

open Store

variable {α : Type} {s : Store α} {seen queue order : List Text}

/-- Every id stands after its parent, unless this is the root. -/
def ParentsFirst (s : Store α) (order : List Text) : Prop :=
  ∀ before id after, order = before ++ id :: after →
    ∃ parent, s.parent? id = some parent ∧ (parent = root ∨ parent ∈ before)

/-- Nothing is written before its parent. -/
theorem ParentsFirst.nil : ParentsFirst s [] := by
  intro before id after same
  simp at same

/-- A node may be written after its parent. -/
theorem ParentsFirst.append {id parent : Text} (first : ParentsFirst s order)
    (link : s.parent? id = some parent) (known : parent = root ∨ parent ∈ order) :
    ParentsFirst s (order ++ [id]) := by
  intro before other after same
  rcases List.eq_nil_or_concat after with rfl | ⟨rest, last, rfl⟩
  · obtain ⟨rfl, isLast⟩ := List.append_inj' same rfl
    obtain rfl := List.singleton_inj.mp isLast
    exact ⟨parent, link, known⟩
  · have regrouped : order ++ [id] = (before ++ other :: rest) ++ [last] := by simpa using same
    exact first before other rest (List.append_inj' regrouped rfl).1

/-- In a part of an order that has parents first, they are first too. -/
theorem ParentsFirst.of_append {rest : List Text} (first : ParentsFirst s (order ++ rest)) : ParentsFirst s order :=
  fun before id after same => first before id (after ++ rest) (by simp [same])

section

variable {id : Text} {n : Node α} {done : Written}

/-- Writing a node, where `above` writes its parent if that is still missing. -/
def writeWith (s : Store α) (above : Written → Text → Written) (done : Written) (id : Text) : Written :=
  if done.met.elem id then done
  else
    match s.find? id with
    | none => done
    | some n =>
      let done := { done with met := id :: done.met }
      let done := if done.met.elem n.parent then done else above done n.parent
      { done with order := done.order ++ [id] }

/-- Writing a node writes what has to come before it, with a bound of one less. -/
theorem write_succ (s : Store α) (bound : Nat) (done : Written) (id : Text) :
    write s (bound + 1) done id = writeWith s (write s bound) done id := rfl

/-- A node whose parent has been met is written at once, whatever would write the parent. -/
theorem writeWith_of_met (above : Written → Text → Written) (found : s.find? id = some n)
    (fresh : id ∉ done.met) (parentMet : n.parent ∈ done.met) :
    writeWith s above done id = ⟨id :: done.met, done.order ++ [id]⟩ := by
  simp [writeWith, found, fresh, parentMet]

end

section

variable (unreserved : root ∉ s.ids) {bound : Nat}

include unreserved

/-- What was met once some nodes are written that stand after their parents: these and the root. The next such
node is new, and its parent is among them. -/
theorem parent_met_of_first {id : Text} (nodup : (order ++ [id]).Nodup) (first : ParentsFirst s (order ++ [id])) :
    id ∉ order.reverse ++ [root] ∧ ∃ n, s.find? id = some n ∧ n.parent ∈ order.reverse ++ [root] := by
  obtain ⟨parent, link, known⟩ := first order id [] rfl
  obtain ⟨n, found⟩ := exists_find? (mem_ids_of_parent? link)
  rw [parent?_of_find? found, Option.some_inj] at link
  have notRoot : id ≠ root := fun same => unreserved (same ▸ mem_ids_of_find? found)
  have fresh : id ∉ order := fun again =>
    (List.nodup_append.mp nodup).2.2 id again id (List.mem_singleton_self id) rfl
  refine ⟨by simp [fresh, notRoot], n, found, ?_⟩
  rcases known with atRoot | before
  · simp [link, atRoot]
  · simp [link, before]

/-- Where each id comes after its parent, nothing is left to write first. -/
theorem foldl_write (nodup : order.Nodup) (first : ParentsFirst s order) :
    order.foldl (write s (bound + 1)) ⟨[root], []⟩ = ⟨order.reverse ++ [root], order⟩ := by
  induction order using List.reverseRecOn with
  | nil => rfl
  | append_singleton order id ih =>
      obtain ⟨fresh, n, found, parentMet⟩ := parent_met_of_first unreserved nodup first
      rw [List.foldl_append, ih (List.nodup_append.mp nodup).1 first.of_append, List.foldl_cons, List.foldl_nil,
        write_succ, writeWith_of_met _ found fresh parentMet]
      simp

end

variable [Arith α]

section

variable (distinct : s.ids.Nodup) (unreserved : root ∉ s.ids)

include distinct unreserved

/-- The walk goes down from the root. What holds at the start, and is kept by each id that is met, holds
in the end. -/
theorem walk_sweep {holds : List Text → List Text → Prop}
    (step : ∀ {seen id rest}, Sweep s root seen (id :: rest) → holds seen (id :: rest) →
      holds (seen ++ [id]) (rest ++ s.childIds id))
    (bound : Nat) (sweep : Sweep s root seen queue) (start : holds seen queue)
    (enough : s.size ≤ bound + seen.length) :
    Sweep s root (walk s bound seen queue) [] ∧ holds (walk s bound seen queue) [] := by
  induction bound generalizing seen queue with
  | zero =>
      have few := sweep.length_le
      cases queue with
      | nil => exact ⟨by simpa [walk] using sweep, by simpa [walk] using start⟩
      | cons id rest =>
          rw [List.length_cons] at few
          omega
  | succ bound ih =>
      cases queue with
      | nil => exact ⟨by simpa [walk] using sweep, by simpa [walk] using start⟩
      | cons id rest =>
          have isNew : ¬seen.elem id := by
            rw [List.elem_iff]
            exact sweep.next_notMem
          have sweep' := sweep.step_of_ne (fun isRoot => unreserved (isRoot ▸ sweep.next_leads.mem_ids))
            (nodup_childIds distinct id) fun child => mem_childIds_iff distinct
          rw [walk, if_neg isNew]
          exact ih sweep' (step sweep start) (by rw [List.length_append, List.length_singleton]; omega)

/-- What holds where the children of the root are queued, and is kept by each id that is met, holds of the
whole walk. -/
theorem levelOrder_induct {motive : List Text → List Text → Prop} (start : motive [] (s.childIds root))
    (step : ∀ {seen id rest}, Sweep s root seen (id :: rest) → motive seen (id :: rest) →
      motive (seen ++ [id]) (rest ++ s.childIds id)) :
    Sweep s root (levelOrder s) [] ∧ motive (levelOrder s) [] := by
  have first : Sweep s root [] (s.childIds root) :=
    .start (nodup_childIds distinct root) fun id => (mem_childIds_iff distinct).mp
  exact walk_sweep distinct unreserved step (2 * s.size + 1) first start (by rw [List.length_nil]; omega)

/-- The walk meets each id after its parent, and the children of the root among them. -/
theorem levelOrder_parentsFirst : Sweep s root (levelOrder s) [] ∧ ParentsFirst s (levelOrder s) ∧
    s.childIds root ⊆ levelOrder s := by
  obtain ⟨sweep, first, queued⟩ := levelOrder_induct distinct unreserved
    (motive := fun seen queue => ParentsFirst s seen ∧ s.childIds root ⊆ seen ++ queue)
    ⟨.nil, List.Subset.refl _⟩ fun {seen id rest} sweep ⟨first, queued⟩ => by
      obtain ⟨parent, link, known⟩ := sweep.linked id (List.mem_append_right _ List.mem_cons_self)
      refine ⟨first.append link known, fun child isChild => ?_⟩
      have regrouped : seen ++ [id] ++ (rest ++ s.childIds id) = seen ++ id :: rest ++ s.childIds id := by simp
      rw [regrouped]
      exact List.mem_append_left _ (queued isChild)
  exact ⟨sweep, first, by simpa using queued⟩

end

/-- The order of levels sweeps a forest from the root on, parents first. -/
theorem levelOrder_sweep (forest : IsForest s) :
    Sweep s root (levelOrder s) [] ∧ ParentsFirst s (levelOrder s) ∧ s.childIds root ⊆ levelOrder s :=
  levelOrder_parentsFirst forest.distinct forest.unreserved

/-- The walk comes to every node. -/
theorem levelOrder_perm (forest : IsForest s) : (levelOrder s).Perm s.ids := by
  obtain ⟨ended, first, queued⟩ := levelOrder_sweep forest
  have distinct : (levelOrder s).Nodup := by simpa using ended.distinct
  refine (List.perm_ext_iff_of_nodup distinct forest.distinct).mpr fun id => ⟨fun met => ?_, fun isNode => ?_⟩
  · exact (ended.below id (by simpa using met)).mem_ids
  · exact ended.mem_of_mem_ids forest.isRooted queued isNode

/-- Nodes are written level by level. -/
theorem writingOrder_eq_of_distinct (distinct : s.ids.Nodup) (unreserved : root ∉ s.ids) :
    writingOrder s = levelOrder s := by
  obtain ⟨ended, first, -⟩ := levelOrder_parentsFirst distinct unreserved
  rw [writingOrder, foldl_write unreserved (by simpa using ended.distinct) first]

/-- The nodes of a forest are written in the order of levels. -/
theorem writingOrder_eq (forest : IsForest s) : writingOrder s = levelOrder s :=
  writingOrder_eq_of_distinct forest.distinct forest.unreserved

/-- The walk only looks at the children of nodes. -/
theorem walk_congr {t : Store α} (same : ∀ id, t.childIds id = s.childIds id) (bound : Nat)
    (seen queue : List Text) : walk t bound seen queue = walk s bound seen queue := by
  induction bound generalizing seen queue with
  | zero => rw [walk, walk]
  | succ bound ih =>
      cases queue with
      | nil => simp [walk]
      | cons id rest => rw [walk, walk, same, ih, ih]

/-- Nodes under the same parents and in the same drawing order are written in the same order. -/
theorem writingOrder_congr {t : Store α} (forest : IsForest s) (links : t.links = s.links)
    (same : ∀ id, t.childIds id = s.childIds id) : writingOrder t = writingOrder s := by
  have size : t.size = s.size := by rw [← length_ids, ids_congr links, length_ids]
  rw [writingOrder_eq forest, writingOrder_eq (forest.congr links), levelOrder, levelOrder, same, size,
    walk_congr same]

/-- Nodes that are only moved and resized are written in the same order. -/
theorem writingOrder_reshaped {t : Store α} (forest : IsForest s) (plain : s.IsPlain)
    (reshaped : Reshaped s t) : writingOrder t = writingOrder s :=
  writingOrder_congr forest reshaped.links fun _ => reshaped.childIds plain

end LayoutDesigner.Script
