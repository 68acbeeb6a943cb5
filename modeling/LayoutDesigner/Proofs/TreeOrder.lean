import LayoutDesigner.Proofs.Depth
import LayoutDesigner.Proofs.WritingOrder

/-!
# Orders of a tree

A tree order lists the nodes that come to the root, each once, every node after its parent and siblings
from the lowest layer up. Both the order of drawing and the order of the script are such, whatever the
links of the nodes that do not come to the root. A list of these nodes is one where no node stands before
what it is within, and siblings stand as they are drawn.
-/

namespace LayoutDesigner.Store

open Script (ParentsFirst)

variable {α : Type} {s : Store α} {id child parent top other : Text} {n m : Node α} {order : List Text}

/-- An id is within a subtree exactly where steps to parents lead to its top. -/
theorem isWithin_iff : s.IsWithin id top ↔
    Relation.ReflTransGen (fun child parent => s.parent? child = some parent) id top := by
  rw [Relation.reflTransGen_iff_eq_or_transGen, IsWithin, LeadsUp, @eq_comm _ id]

/-- What leads up to a parent is within one of its children. -/
theorem leadsUp_iff_child : s.LeadsUp id parent ↔ ∃ child, s.parent? child = some parent ∧ s.IsWithin id child := by
  rw [LeadsUp, Relation.TransGen.tail'_iff]
  exact exists_congr fun child => by rw [and_comm, isWithin_iff]

/-- Of two ids that something is within, one is within the other. -/
theorem IsWithin.total (first : s.IsWithin id top) (second : s.IsWithin id other) :
    s.IsWithin top other ∨ s.IsWithin other top := by
  have unique : Relator.RightUnique fun child parent => s.parent? child = some parent :=
    fun _ _ _ link link' => Option.some.inj (link.symm.trans link')
  simp only [isWithin_iff] at first second ⊢
  exact first.total_of_right_unique unique second

section

variable (unreserved : root ∉ s.ids) (above : s.Grounded parent)

include unreserved above

/-- A parent is not within its child. -/
theorem not_isWithin_child (link : s.parent? child = some parent) : ¬s.IsWithin parent child := by
  intro within
  refine (Grounded.step link above).not_leadsUp_self unreserved ?_
  rcases within with rfl | leads
  · exact .single link
  · exact .head link leads

/-- Nothing is within two siblings. -/
theorem eq_of_isWithin (link : s.parent? child = some parent) (link' : s.parent? other = some parent)
    (first : s.IsWithin id child) (second : s.IsWithin id other) : child = other := by
  have apart : ∀ {a b}, s.parent? a = some parent → s.parent? b = some parent → s.LeadsUp a b → False :=
    fun link link' leads => not_isWithin_child unreserved above link' ((leadsUp_of_parent? link).mp leads)
  rcases first.total second with (same | leads) | (same | leads)
  · exact same
  · exact (apart link link' leads).elim
  · exact same.symm
  · exact (apart link' link leads).elim

end

/-- If the two ids are of siblings, the first is drawn before the second. -/
def DrawnBefore (s : Store α) (id other : Text) : Prop :=
  ∀ n m, s.find? id = some n → s.find? other = some m → n.parent = m.parent → n.drawnBefore m

/-- The children of a parent stand as they are drawn. -/
theorem childIds_sorted [Arith α] (plain : s.IsPlain) (distinct : s.ids.Nodup) (parent : Text) :
    (s.childIds parent).Pairwise s.DrawnBefore := by
  rw [childIds, List.pairwise_map]
  refine (childrenOf_sorted plain parent).imp_of_mem fun {a b} left right before n m found found' _ => ?_
  have isNode : ∀ {k}, k ∈ s.childrenOf parent → k ∈ s.nodes := fun child => (mem_childrenOf.mp child).1
  rw [find?_of_mem distinct (isNode left), Option.some_inj] at found
  rw [find?_of_mem distinct (isNode right), Option.some_inj] at found'
  exact found ▸ found' ▸ before

/-- Of two ids in a list of nodes, the first is not within the second, and is drawn before it if they
are siblings. -/
structure Precedes (s : Store α) (id other : Text) : Prop where
  apart : ¬s.IsWithin id other
  siblings : s.DrawnBefore id other

/-- A node precedes what is below it. -/
theorem Precedes.of_leadsUp (unreserved : root ∉ s.ids) (grounded : s.Grounded id) (leads : s.LeadsUp other id) :
    s.Precedes id other where
  apart := by
    rintro (rfl | circle)
    · exact grounded.not_leadsUp_self unreserved leads
    · exact grounded.not_leadsUp_self unreserved (circle.trans leads)
  siblings := by
    intro n m found found' siblings
    refine (grounded.not_leadsUp_self unreserved ?_).elim
    rw [leadsUp_of_parent? (parent?_of_find? found), siblings]
    exact (leadsUp_of_parent? (parent?_of_find? found')).mp leads

/-- What is within a node precedes what is within a later sibling. -/
theorem Precedes.of_siblings (unreserved : root ∉ s.ids) (above : s.Grounded parent)
    (link : s.parent? child = some parent) (link' : s.parent? top = some parent) (differs : child ≠ top)
    (inOrder : s.DrawnBefore child top) (within : s.IsWithin id child) (within' : s.IsWithin other top) :
    s.Precedes id other where
  apart := fun inside => by
    refine differs (eq_of_isWithin unreserved above link link' within ?_)
    rw [isWithin_iff] at inside within' ⊢
    exact inside.trans within'
  siblings := by
    intro n m found found' siblings
    have up : s.LeadsUp id child ↔ n.parent = child ∨ s.LeadsUp n.parent child :=
      leadsUp_of_parent? (parent?_of_find? found)
    have up' : s.LeadsUp other top ↔ n.parent = top ∨ s.LeadsUp n.parent top :=
      siblings ▸ leadsUp_of_parent? (parent?_of_find? found')
    -- The parent of what is below one of them is within it, so it is no parent of what is within the other.
    rcases within with rfl | leads <;> rcases within' with rfl | leads'
    · exact inOrder n m found found' siblings
    · rw [parent?_of_find? found, Option.some_inj] at link
      exact (not_isWithin_child unreserved above link' (link ▸ up'.mp leads')).elim
    · rw [parent?_of_find? found', ← siblings, Option.some_inj] at link'
      exact (not_isWithin_child unreserved above link (link' ▸ up.mp leads)).elim
    · exact (differs (eq_of_isWithin unreserved above link link' (up.mp leads) (up'.mp leads'))).elim

/-- The ids of the nodes that come to the root, each once, every node after its parent and siblings from
the lowest layer up. -/
structure IsTreeOrder (s : Store α) (order : List Text) : Prop where
  exact : ∀ id, id ∈ order ↔ s.LeadsUp id root
  distinct : order.Nodup
  parentsFirst : ParentsFirst s order
  siblings : order.Pairwise s.DrawnBefore

/-- Where each id is not within a later one and siblings stand as they are drawn, that is a tree order of
the nodes that come to the root. -/
theorem IsTreeOrder.of_precedes (unreserved : root ∉ s.ids) (exact : ∀ id, id ∈ order ↔ s.LeadsUp id root)
    (inOrder : order.Pairwise s.Precedes) : s.IsTreeOrder order where
  exact := exact
  distinct := inOrder.imp fun precedes same => precedes.apart (.inl same)
  parentsFirst := by
    intro before id after split
    have leads : s.LeadsUp id root := (exact id).mp (by simp [split])
    obtain ⟨parent, link, above⟩ := leadsUp_iff.mp leads
    refine ⟨parent, link, above.imp_right fun leadsOn => ?_⟩
    have notSelf := (Grounded.of_leadsUp_root leads).not_leadsUp_self unreserved
    have listed := (exact parent).mpr leadsOn
    rw [split, List.mem_append, List.mem_cons] at listed
    rw [split, List.pairwise_append, List.pairwise_cons] at inOrder
    refine listed.resolve_right ?_
    rintro (rfl | later)
    · exact notSelf (.single link)
    · exact (inOrder.2.1.1 parent later).apart (.inr (.single link))
  siblings := inOrder.imp fun precedes => precedes.siblings

/-- Two tree orders list the same nodes. -/
theorem IsTreeOrder.perm {order' : List Text} (first : s.IsTreeOrder order) (second : s.IsTreeOrder order') :
    order.Perm order' :=
  (List.perm_ext_iff_of_nodup first.distinct second.distinct).mpr fun id => (first.exact id).trans (second.exact id).symm

end LayoutDesigner.Store
