import LayoutDesigner.Proofs.Depth
import LayoutDesigner.Proofs.Housed
import Mathlib.Order.Defs.Unbundled

/-!
# The walk up on any links

The links of a store may lead from a node to itself, in a circle or nowhere. The walk up still ends:
what it goes on to is a node that it has not met, and there are only so many nodes. So the bound on its
steps is never used up, and what it passes are the first, second, … parents of where it began, each
once. Where the links make no circle, being below a node is a strict order, and a child is one step
deeper than its parent.
-/

namespace LayoutDesigner.Store

variable {α : Type} {s : Store α} {id parent : Text} {met chain : List Text}

/-- From `id` the walk that met `met` goes on to a parent: to a node, but never to the root and to no id
twice. -/
structure GoesTo (s : Store α) (met : List Text) (id parent : Text) : Prop where
  link : s.parent? id = some parent
  notRoot : parent ≠ root
  fresh : parent ∉ met
  known : parent ∈ s.ids

/-- The walk up from `id` passes the chain and ends there. No bound limits its steps. -/
inductive Ascends (s : Store α) : (met : List Text) → (id : Text) → (chain : List Text) → Prop
  | stop {met : List Text} {id : Text} (ends : ∀ parent, ¬s.GoesTo met id parent) : Ascends s met id []
  | step {met chain : List Text} {id parent : Text} (goes : s.GoesTo met id parent)
      (above : Ascends s (parent :: met) parent chain) : Ascends s met id (parent :: chain)

/-- The parent of the parent and so on, counted in steps; none where a step leads from no node. -/
def up (s : Store α) (id : Text) : Nat → Option Text
  | 0 => some id
  | steps + 1 => (s.up id steps).bind s.parent?

/-- The first step can be taken first. -/
theorem up_succ (link : s.parent? id = some parent) (steps : Nat) : s.up id (steps + 1) = s.up parent steps := by
  induction steps with
  | zero => exact link
  | succ steps ih =>
      rw [up, ih]
      rfl

/-- A walk can go on to no more than one id. -/
theorem GoesTo.unique {other : Text} (goes : s.GoesTo met id parent) (also : s.GoesTo met id other) :
    parent = other := by
  have same := goes.link.symm.trans also.link
  exact Option.some.inj same

/-- A step of the bounded walk goes where the walk goes, and ends where it ends. -/
theorem ancestorsFrom_succ (s : Store α) (bound : Nat) (met : List Text) (id : Text) :
    (∃ parent, s.GoesTo met id parent ∧
        s.ancestorsFrom (bound + 1) met id = parent :: s.ancestorsFrom bound (parent :: met) parent) ∨
      (∀ parent, ¬s.GoesTo met id parent) ∧ s.ancestorsFrom (bound + 1) met id = [] := by
  rw [ancestorsFrom]
  cases found : s.find? id with
  | none =>
      right
      refine ⟨fun parent goes => ?_, rfl⟩
      have link := goes.link
      rw [parent?, found] at link
      cases link
  | some n =>
      have link := parent?_of_find? found
      by_cases ends : n.parent = root ∨ n.parent ∈ met ∨ !s.contains n.parent
      · right
        refine ⟨fun parent goes => ?_, if_pos ends⟩
        obtain rfl : n.parent = parent := Option.some.inj (link.symm.trans goes.link)
        have known := contains_iff.mpr goes.known
        rcases ends with atRoot | again | unknown
        · exact goes.notRoot atRoot
        · exact goes.fresh again
        · simp [known] at unknown
      · left
        refine ⟨n.parent, ?_, if_neg ends⟩
        simp only [not_or, Bool.not_eq_true', Bool.not_eq_false] at ends
        exact ⟨link, ends.1, ends.2.1, contains_iff.mp ends.2.2⟩

/-- The bound is not used up: each step meets one more of the nodes. -/
theorem ascends_ancestorsFrom {bound : Nat} (distinct : met.Nodup) (nodes : met ⊆ s.ids)
    (enough : s.size < bound + met.length) : s.Ascends met id (s.ancestorsFrom bound met id) := by
  induction bound generalizing met id with
  | zero =>
      have few := (List.subperm_of_subset distinct nodes).length_le
      rw [length_ids] at few
      omega
  | succ bound ih =>
      rcases ancestorsFrom_succ s bound met id with ⟨parent, goes, walked⟩ | ⟨ends, walked⟩
      · rw [walked]
        apply Ascends.step goes
        apply ih
        · exact List.nodup_cons.mpr ⟨goes.fresh, distinct⟩
        · exact List.cons_subset.mpr ⟨goes.known, nodes⟩
        · rw [List.length_cons]
          omega
      · rw [walked]
        exact Ascends.stop ends

/-- The walk up ends, whatever the links are, with the chain of parents. -/
theorem ascends_ancestors (s : Store α) (id : Text) : s.Ascends [id] id (s.ancestors id) := by
  by_cases isNode : id ∈ s.ids
  · apply ascends_ancestorsFrom
    · exact List.nodup_singleton id
    · exact List.cons_subset.mpr ⟨isNode, List.nil_subset _⟩
    · rw [List.length_singleton]
      omega
  · have ends : ∀ parent, ¬s.GoesTo [id] id parent := fun parent goes => isNode (mem_ids_of_parent? goes.link)
    have nothing : s.ancestors id = [] := by
      rw [ancestors]
      cases s.size with
      | zero => rfl
      | succ bound =>
          rcases ancestorsFrom_succ s bound [id] id with ⟨parent, goes, -⟩ | ⟨-, walked⟩
          · exact absurd goes (ends parent)
          · exact walked
    rw [nothing]
    exact Ascends.stop ends

namespace Ascends

/-- There is one way up. -/
theorem unique {other : List Text} (walk : s.Ascends met id chain) (also : s.Ascends met id other) : chain = other := by
  induction walk generalizing other with
  | stop ends =>
      cases also with
      | stop => rfl
      | step goes => exact absurd goes (ends _)
  | step goes _ ih =>
      cases also with
      | stop ends => exact absurd goes (ends _)
      | step goes' above =>
          obtain rfl := goes.unique goes'
          rw [ih above]

/-- A walk to the end meets the ancestors of the id. -/
theorem eq_ancestors (walk : s.Ascends [id] id chain) : s.ancestors id = chain :=
  (ascends_ancestors s id).unique walk

/-- All that a walk meets are nodes other than the root that it has not met before. -/
theorem mem (walk : s.Ascends met id chain) : ∀ above ∈ chain, above ∈ s.ids ∧ above ≠ root ∧ above ∉ met := by
  induction walk with
  | stop => exact List.forall_mem_nil _
  | step goes _ ih =>
      refine List.forall_mem_cons.mpr ⟨⟨goes.known, goes.notRoot, goes.fresh⟩, fun above listed => ?_⟩
      obtain ⟨isNode, notRoot, fresh⟩ := ih above listed
      exact ⟨isNode, notRoot, fun again => fresh (List.mem_cons_of_mem _ again)⟩

/-- A walk meets no node twice. -/
theorem nodup (walk : s.Ascends met id chain) : chain.Nodup := by
  induction walk with
  | stop => exact List.nodup_nil
  | step _ above ih =>
      refine List.nodup_cons.mpr ⟨fun again => ?_, ih⟩
      exact (above.mem _ again).2.2 List.mem_cons_self

/-- Where the walk began and what it passed are different nodes. -/
theorem length_le (walk : s.Ascends [id] id chain) : chain.length ≤ s.size - 1 := by
  cases walk with
  | stop => exact Nat.zero_le _
  | @step _ rest _ parent goes above =>
      have walk : s.Ascends [id] id (parent :: rest) := .step goes above
      have distinct : (id :: parent :: rest).Nodup := by
        refine List.nodup_cons.mpr ⟨fun again => ?_, walk.nodup⟩
        exact (walk.mem id again).2.2 (List.mem_singleton_self id)
      have nodes : id :: parent :: rest ⊆ s.ids :=
        List.cons_subset.mpr ⟨mem_ids_of_parent? goes.link, fun above listed => (walk.mem above listed).1⟩
      have few := (List.subperm_of_subset distinct nodes).length_le
      rw [length_ids, List.length_cons] at few
      omega

/-- What is passed first is the parent, what is passed next the parent of that, and so on. -/
theorem exact (walk : s.Ascends met id chain) (k : Nat) (inside : k < chain.length) :
    s.up id (k + 1) = some chain[k] := by
  induction walk generalizing k with
  | stop => simp at inside
  | step goes _ ih =>
      rw [up_succ goes.link]
      cases k with
      | zero => rfl
      | succ k => exact ih k (by simpa using inside)

/-- The walk ends only where it cannot go on. -/
theorem stops (walk : s.Ascends met id chain) (next : s.up id (chain.length + 1) = some parent) :
    parent = root ∨ parent ∉ s.ids ∨ parent ∈ met ∨ parent ∈ chain := by
  induction walk with
  | stop ends =>
      by_contra goesOn
      simp only [not_or, not_not] at goesOn
      exact ends parent ⟨next, goesOn.1, goesOn.2.2.1, goesOn.2.1⟩
  | step goes _ ih =>
      rw [List.length_cons, up_succ goes.link] at next
      rcases ih next with atRoot | unknown | again | again
      · exact .inl atRoot
      · exact .inr (.inl unknown)
      · rcases List.mem_cons.mp again with rfl | again
        · exact .inr (.inr (.inr List.mem_cons_self))
        · exact .inr (.inr (.inl again))
      · exact .inr (.inr (.inr (List.mem_cons_of_mem _ again)))

/-- Having met more ids before makes no difference where the walk passes none of them. -/
theorem extend {more : List Text} (walk : s.Ascends met id chain) (apart : ∀ above ∈ chain, above ∉ more) :
    s.Ascends (met ++ more) id chain := by
  induction walk with
  | stop ends =>
      refine .stop fun parent goes => ends parent ⟨goes.link, goes.notRoot, fun again => ?_, goes.known⟩
      exact goes.fresh (List.mem_append_left _ again)
  | step goes _ ih =>
      obtain ⟨first, rest⟩ := List.forall_mem_cons.mp apart
      refine .step ⟨goes.link, goes.notRoot, ?_, goes.known⟩ (ih rest)
      rw [List.mem_append, not_or]
      exact ⟨goes.fresh, first⟩

end Ascends

/-- A chain of parents on any links: what the walk up from an id passes. -/
structure IsAscent (s : Store α) (id : Text) (chain : List Text) : Prop where
  /-- All of them are nodes, but neither the root nor the id itself. -/
  nodes : ∀ above ∈ chain, above ∈ s.ids ∧ above ≠ root ∧ above ≠ id
  /-- None is passed twice. -/
  distinct : chain.Nodup
  /-- The one in the `k`-th place is the `k`-fold parent, counted from one. -/
  exact : ∀ k (inside : k < chain.length), s.up id (k + 1) = some chain[k]
  /-- It ends where the next parent is the root, is missing or was met. -/
  stops : ∀ parent, s.up id (chain.length + 1) = some parent → parent = root ∨ parent ∉ s.ids ∨ parent ∈ id :: chain

/-- A walk to the end is an ascent: it follows the parents and stops for one of the reasons that there are. -/
theorem Ascends.isAscent (walk : s.Ascends [id] id chain) : s.IsAscent id chain where
  nodes above listed := by
    obtain ⟨isNode, notRoot, fresh⟩ := walk.mem above listed
    exact ⟨isNode, notRoot, by simpa using fresh⟩
  distinct := walk.nodup
  exact := walk.exact
  stops parent next := by
    rw [List.mem_cons, ← List.mem_singleton (b := id)]
    exact walk.stops next

section

variable (unreserved : root ∉ s.ids) (acyclic : ∀ id ∈ s.ids, ¬s.LeadsUp id id)

include unreserved acyclic

/-- The chain of a child is its parent followed by the chain of that. The links may lead nowhere. -/
theorem ancestors_of_link (link : s.parent? id = some parent) (isNode : parent ∈ s.ids) :
    s.ancestors id = parent :: s.ancestors parent := by
  have isChild := mem_ids_of_parent? link
  have other : parent ≠ id := by
    rintro rfl
    exact acyclic parent isNode (.single link)
  have notRoot : parent ≠ root := fun atRoot => unreserved (atRoot ▸ isNode)
  have apart : ∀ above ∈ s.ancestors parent, above ∉ [id] := by
    intro above listed again
    obtain rfl := List.mem_singleton.mp again
    exact acyclic above isChild ((leadsUp_of_parent? link).mpr (.inr ((mem_ancestors unreserved).mp listed).2.2))
  apply Ascends.eq_ancestors
  apply Ascends.step ⟨link, notRoot, by simpa using other, isNode⟩
  exact (ascends_ancestors s parent).extend apart

/-- Being below a node is a strict order of the nodes. -/
theorem isStrictOrder_isDescendant : IsStrictOrder { id // id ∈ s.ids }
    fun below above => s.isDescendant (some below.1) (some above.1) := by
  have isBelow_iff : ∀ below above : { id // id ∈ s.ids },
      s.isDescendant (some below.1) (some above.1) ↔ above.1 ≠ below.1 ∧ s.LeadsUp below.1 above.1 := by
    rintro ⟨below, -⟩ ⟨above, isNode⟩
    have notRoot : above ≠ root := fun atRoot => unreserved (atRoot ▸ isNode)
    rw [isDescendant, isBelow, if_neg notRoot, List.elem_iff, mem_ancestors unreserved]
    exact and_iff_right isNode
  refine { irrefl := fun id below => ?_, trans := fun first second third lower upper => ?_ }
  · exact ((isBelow_iff id id).mp below).1 rfl
  · obtain ⟨-, lower⟩ := (isBelow_iff first second).mp lower
    obtain ⟨-, upper⟩ := (isBelow_iff second third).mp upper
    refine (isBelow_iff first third).mpr ⟨fun same => ?_, lower.trans upper⟩
    exact acyclic first.1 first.2 (same ▸ lower.trans upper)

end

/-- **Walks up are bounded and exact on any links.** Take any store, whatever its links are, and any id.
The walk up ends, and with one chain only; this is the chain of parents, it holds different nodes, each at
its place, and it stops only where it cannot go on. So no node is deeper than there are other nodes. Where
the links make no circle and no node has the id of the root, being below a node is a strict order of the
nodes, and a child is one step deeper than its parent. -/
theorem ancestors_isAscent (s : Store α) :
    (∀ id, s.Ascends [id] id (s.ancestors id) ∧ (∀ chain, s.Ascends [id] id chain → chain = s.ancestors id) ∧
      s.IsAscent id (s.ancestors id) ∧ s.depthOf id ≤ s.size - 1) ∧
    (root ∉ s.ids → (∀ id ∈ s.ids, ¬s.LeadsUp id id) →
      IsStrictOrder { id // id ∈ s.ids } (fun below above => s.isDescendant (some below.1) (some above.1)) ∧
      ∀ child parent, s.parent? child = some parent → parent ∈ s.ids → s.depthOf child = s.depthOf parent + 1) := by
  constructor
  · intro id
    have walk := ascends_ancestors s id
    exact ⟨walk, fun chain also => also.unique walk, walk.isAscent, walk.length_le⟩
  · intro unreserved acyclic
    refine ⟨isStrictOrder_isDescendant unreserved acyclic, fun child parent link isNode => ?_⟩
    rw [depthOf, ancestors_of_link unreserved acyclic link isNode, List.length_cons, depthOf]

/-- Each step up leads to a lower rank, so a chain does. -/
theorem LeadsUp.rank_lt {ancestor : Text} (rank : Text → Nat) (lower : ∀ n ∈ s.nodes, rank n.parent < rank n.id)
    (leads : s.LeadsUp id ancestor) : rank ancestor < rank id := by
  have link_lt : ∀ {child parent : Text}, s.parent? child = some parent → rank parent < rank child := by
    intro child parent link
    obtain ⟨n, found, rfl⟩ := Option.map_eq_some_iff.mp link
    have less := lower n (mem_of_find? found)
    rwa [id_of_find? found] at less
  induction leads with
  | single link => exact link_lt link
  | tail _ link ih => exact (link_lt link).trans ih

/-- A frame on a missing parent with a frame in it that holds a label, and a label on the canvas. -/
def dangling : Store ℚ where
  canvasW := .int 980
  canvasH := .int 620
  nodes := [Node.square .textLabel "inner" "middle" (1 / 2) 20 30, Node.square .frame "middle" "outer" (1 / 2) 40 60,
    Node.square .frame "outer" "nowhere" (1 / 2) 200 300, Node.square .textLabel "apart" root (1 / 2) 40 60]

/-- The parents of the frames lead nowhere, and still each node is one step deeper than its parent. -/
theorem ancestors_isAscent_dangling : root ∉ dangling.ids ∧ (∀ id ∈ dangling.ids, ¬dangling.LeadsUp id id) ∧
    IsStrictOrder { id // id ∈ dangling.ids }
      (fun below above => dangling.isDescendant (some below.1) (some above.1)) ∧
    dangling.depthOf "inner" = dangling.depthOf "middle" + 1 := by
  have unreserved : root ∉ dangling.ids := by decide
  have acyclic : ∀ id ∈ dangling.ids, ¬dangling.LeadsUp id id := by
    intro id _ circle
    have lower : ∀ n ∈ dangling.nodes, 4 - dangling.ids.idxOf n.parent < 4 - dangling.ids.idxOf n.id := by decide
    exact lt_irrefl _ (circle.rank_lt (fun id => 4 - dangling.ids.idxOf id) lower)
  obtain ⟨strict, deeper⟩ := (ancestors_isAscent dangling).2 unreserved acyclic
  exact ⟨unreserved, acyclic, strict, deeper "inner" "middle" (by decide) (by decide)⟩

end LayoutDesigner.Store
