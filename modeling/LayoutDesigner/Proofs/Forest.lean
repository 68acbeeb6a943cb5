import LayoutDesigner.Repair
import LayoutDesigner.Proofs.Lookup
import Mathlib.Data.Finset.Basic
import Mathlib.Data.Fintype.EquivFin
import Mathlib.Logic.Relation
import Mathlib.Order.WellFounded

/-!
# The forest of a store

Parents are named by id, so a store is a forest only where its links say so: ids are distinct, every
parent is the root or a container of the store, and following the links from any node comes to the
root. This module says what the bounded walks along the links find, and that moving a node under a
container that is not below it, adding a leaf and removing whole subtrees keep the forest.
-/

namespace LayoutDesigner

/-- What the tree of a store is made of: a node's id, its kind and the parent that it names. -/
structure Link where
  id : Text
  kind : Kind
  parent : Text

variable {α : Type}

/-- The link of a node. -/
def Node.link (n : Node α) : Link := ⟨n.id, n.kind, n.parent⟩

namespace Store

/-- The links of the nodes, oldest first. -/
def links (s : Store α) : List Link := s.nodes.map Node.link

/-- The parent that the node with an id names. -/
def parent? (s : Store α) (id : Text) : Option Text := (s.find? id).map Node.parent

/-- Following the parents of `node`, one or more, leads to `ancestor`. -/
def LeadsUp (s : Store α) (node ancestor : Text) : Prop :=
  Relation.TransGen (fun child parent => s.parent? child = some parent) node ancestor

/-- The node is the other one or below it. -/
def IsWithin (s : Store α) (node top : Text) : Prop := node = top ∨ s.LeadsUp node top

/-- Following the parents of an id comes to the root. -/
inductive Grounded (s : Store α) : Text → Prop
  | atRoot : Grounded s root
  | step {child parent : Text} (link : s.parent? child = some parent)
      (above : Grounded s parent) : Grounded s child

/-- The nodes are a forest of containers below the root. -/
structure IsForest (s : Store α) : Prop where
  distinct : s.ids.Nodup
  unreserved : root ∉ s.ids
  contained : ∀ n ∈ s.nodes, n.parent = root ∨ ∃ p ∈ s.nodes, p.id = n.parent ∧ p.kind.isContainer
  grounded : ∀ n ∈ s.nodes, s.Grounded n.id

/-- The nodes are a tree below the root, whatever their kinds. -/
structure IsRooted (s : Store α) : Prop where
  distinct : s.ids.Nodup
  unreserved : root ∉ s.ids
  grounded : ∀ n ∈ s.nodes, s.Grounded n.id

variable {s t : Store α} {id child ancestor parent target : Text} {n : Node α}

/-- A node that is found has its parent. -/
theorem parent?_of_find? (found : s.find? id = some n) : s.parent? id = some n.parent := by
  rw [parent?, found, Option.map_some]

/-- Each node of a store with distinct ids has its parent. -/
theorem parent?_of_mem (distinct : s.ids.Nodup) (member : n ∈ s.nodes) :
    s.parent? n.id = some n.parent := parent?_of_find? (find?_of_mem distinct member)

/-- Exactly an id without a node has no parent. -/
theorem parent?_eq_none : s.parent? id = none ↔ id ∉ s.ids := by
  rw [parent?, Option.map_eq_none_iff, find?_eq_none]

/-- Only nodes have parents. -/
theorem mem_ids_of_parent? (link : s.parent? child = some parent) : child ∈ s.ids := by
  by_contra missing
  rw [parent?_eq_none.mpr missing] at link
  cases link

/-- The ids of a store are those of its links. -/
theorem ids_eq_links : s.ids = s.links.map Link.id := by
  simp only [ids, links, List.map_map]
  rfl

/-- The parent of an id is read off the links. -/
theorem parent?_eq_links :
    s.parent? id = (s.links.find? fun link => link.id = id).map Link.parent := by
  simp only [parent?, Store.find?, links, List.find?_map, Option.map_map]
  rfl

/-- Stores with the same links have the same ids. -/
theorem ids_congr (same : t.links = s.links) : t.ids = s.ids := by
  rw [ids_eq_links, ids_eq_links, same]

/-- Stores with the same links have the same parents. -/
theorem parent?_congr (same : t.links = s.links) : t.parent? = s.parent? := by
  funext id
  rw [parent?_eq_links, parent?_eq_links, same]

/-- Where the links are the same, each node comes of one with its link. -/
theorem exists_link (same : t.links = s.links) (member : n ∈ t.nodes) :
    ∃ m ∈ s.nodes, m.link = n.link := by
  have inLinks : n.link ∈ t.links := List.mem_map_of_mem member
  rw [same] at inLinks
  exact List.mem_map.mp inLinks

/-- What leads up to an ancestor has it for a parent or has a parent that leads up to it. -/
theorem leadsUp_iff : s.LeadsUp child ancestor ↔
    ∃ parent, s.parent? child = some parent ∧ (parent = ancestor ∨ s.LeadsUp parent ancestor) := by
  constructor
  · intro leads
    obtain ⟨parent, link, rest⟩ := Relation.TransGen.head'_iff.mp leads
    refine ⟨parent, link, ?_⟩
    rcases rest.cases_head with same | ⟨next, first, rest⟩
    · exact .inl same
    · exact .inr (Relation.TransGen.head' first rest)
  · rintro ⟨parent, link, rfl | leads⟩
    · exact .single link
    · exact .head link leads

/-- Ways up can be put together. -/
theorem LeadsUp.trans (lower : s.LeadsUp child parent) (upper : s.LeadsUp parent ancestor) :
    s.LeadsUp child ancestor := Relation.TransGen.trans lower upper

/-- Whether an id leads up to another one goes by the links. -/
theorem leadsUp_congr (same : t.links = s.links) :
    t.LeadsUp child ancestor ↔ s.LeadsUp child ancestor := by
  rw [LeadsUp, LeadsUp, parent?_congr same]

/-- A chain starts at a node. -/
theorem LeadsUp.mem_ids (leads : s.LeadsUp child ancestor) : child ∈ s.ids := by
  obtain ⟨parent, link, -⟩ := leadsUp_iff.mp leads
  exact mem_ids_of_parent? link

/-- What has a known parent leads to it and to what that leads to. -/
theorem leadsUp_of_parent? (link : s.parent? child = some parent) :
    s.LeadsUp child ancestor ↔ parent = ancestor ∨ s.LeadsUp parent ancestor := by
  rw [leadsUp_iff]
  constructor
  · rintro ⟨other, otherLink, leads⟩
    rw [link, Option.some_inj] at otherLink
    rwa [otherLink]
  · intro leads
    exact ⟨parent, link, leads⟩

namespace IsWithin

/-- An id is within its own subtree. -/
theorem refl (id : Text) : s.IsWithin id id := .inl rfl

/-- What is within a child is within its parent. -/
theorem step (within : s.IsWithin id child) (link : s.parent? child = some parent) : s.IsWithin id parent := by
  rcases within with rfl | leads
  · exact .inr (.single link)
  · exact .inr (leads.tail link)

/-- A child is within what its parent is within. -/
theorem of_parent? (link : s.parent? child = some parent) (within : s.IsWithin parent id) :
    s.IsWithin child id := .inr ((leadsUp_of_parent? link).mpr within)

/-- Whether an id is within a subtree goes by the links. -/
theorem of_links (same : t.links = s.links) : t.IsWithin child ancestor ↔ s.IsWithin child ancestor := by
  rw [IsWithin, IsWithin, leadsUp_congr same]

end IsWithin

/-- A set of ids that is closed under parents holds every id that one of its members leads to. -/
theorem LeadsUp.of_closed {closed : Text → Prop}
    (up : ∀ child parent, closed child → s.parent? child = some parent → closed parent)
    (leads : s.LeadsUp child ancestor) (start : closed child) : closed ancestor := by
  induction leads with
  | single link => exact up _ _ start link
  | tail _ link ih => exact up _ _ ih link

/-- The root has no parent unless there is a node of its id. -/
theorem parent?_root (unreserved : root ∉ s.ids) : s.parent? root = none :=
  parent?_eq_none.mpr unreserved

/-- Whether an id is grounded goes by the links. -/
theorem Grounded.congr (same : t.links = s.links) (grounded : s.Grounded id) : t.Grounded id := by
  induction grounded with
  | atRoot => exact .atRoot
  | step link _ ih => exact .step (by rwa [parent?_congr same]) ih

/-- The parent of a grounded node is grounded. -/
theorem Grounded.of_parent? (unreserved : root ∉ s.ids) (grounded : s.Grounded child)
    (link : s.parent? child = some parent) : s.Grounded parent := by
  cases grounded with
  | atRoot => simp [parent?_root unreserved] at link
  | step otherLink above =>
      rw [link, Option.some_inj] at otherLink
      rwa [otherLink]

/-- What a grounded node leads up to is grounded. -/
theorem Grounded.of_leadsUp (unreserved : root ∉ s.ids) (grounded : s.Grounded child)
    (leads : s.LeadsUp child ancestor) : s.Grounded ancestor :=
  leads.of_closed (fun _ _ below link => below.of_parent? unreserved link) grounded

/-- What comes to the root is on no circle. -/
theorem Grounded.not_leadsUp_self (unreserved : root ∉ s.ids) (grounded : s.Grounded id) :
    ¬s.LeadsUp id id := by
  induction grounded with
  | atRoot => exact fun circle => unreserved circle.mem_ids
  | @step child parent link _ ih =>
      intro circle
      refine ih ?_
      rcases (leadsUp_of_parent? link).mp circle with rfl | leads
      · exact circle
      · exact leads.trans (.single link)

/-- Where the parent comes to the root, the child leads up to it. -/
theorem Grounded.leadsUp_root_of_child (above : s.Grounded parent) (link : s.parent? child = some parent) :
    s.LeadsUp child root := by
  refine (leadsUp_of_parent? link).mpr ?_
  clear link
  induction above with
  | atRoot => exact .inl rfl
  | step link _ ih => exact .inr ((leadsUp_of_parent? link).mpr ih)

/-- Every grounded node leads up to the root. -/
theorem Grounded.leadsUp_root (grounded : s.Grounded id) (member : id ∈ s.ids)
    (unreserved : root ∉ s.ids) : s.LeadsUp id root := by
  cases grounded with
  | atRoot => exact absurd member unreserved
  | step link above => exact above.leadsUp_root_of_child link

/-- Links that lead to nodes or to the root and make no circle come to the root: there are only
finitely many nodes to pass. -/
theorem grounded_of_acyclic
    (linked : ∀ child parent, s.parent? child = some parent → parent = root ∨ parent ∈ s.ids)
    (acyclic : ∀ id ∈ s.ids, ¬s.LeadsUp id id) (member : id ∈ s.ids) : s.Grounded id := by
  let above (a b : { id // id ∈ s.ids }) : Prop := s.LeadsUp b.1 a.1
  have finite : Finite { id // id ∈ s.ids } :=
    Finite.of_injective (fun a => (⟨a.1, List.mem_toFinset.mpr a.2⟩ : s.ids.toFinset))
      fun _ _ same => Subtype.ext (congrArg (·.1) same)
  have irreflexive : Std.Irrefl above := ⟨fun a => acyclic a.1 a.2⟩
  have transitive : IsTrans _ above := ⟨fun _ _ _ upper lower => LeadsUp.trans lower upper⟩
  have wellFounded : WellFounded above := Finite.wellFounded_of_trans_of_irrefl above
  have all : ∀ a : { id // id ∈ s.ids }, s.Grounded a.1 := by
    intro a
    induction a using wellFounded.induction with
    | _ a ih =>
        obtain ⟨n, found⟩ := exists_find? a.2
        have link := parent?_of_find? found
        rcases linked _ _ link with isRoot | isNode
        · exact .step link (isRoot ▸ .atRoot)
        · exact .step link (ih ⟨n.parent, isNode⟩ (.single link))
  exact all ⟨id, member⟩

/-- What a walk that stands at `position` has met so far. Both walks keep the ids that they met. These are
nodes, each met once, and but for the one where the walk stands, the parent of each was met too. So the
bound is never used up, and a walk that ends with an id it met has seen all that there is above. -/
structure Met (s : Store α) (met : List Text) (position : Text) : Prop where
  distinct : met.Nodup
  nodes : met ⊆ s.ids
  closed : ∀ child ∈ met, ∀ parent, s.parent? child = some parent →
    parent ∈ met ∨ parent = position

/-- No more ids are met than there are nodes. -/
theorem Met.length_le {met : List Text} (holds : Met s met id) : met.length ≤ s.size := by
  rw [← length_ids]
  exact (List.subperm_of_subset holds.distinct holds.nodes).length_le

/-- One step up to an id that was not met. -/
theorem Met.step {met : List Text} (holds : Met s met id) (fresh : id ∉ met)
    (link : s.parent? id = some parent) : Met s (id :: met) parent where
  distinct := List.nodup_cons.mpr ⟨fresh, holds.distinct⟩
  nodes := List.cons_subset.mpr ⟨mem_ids_of_parent? link, holds.nodes⟩
  closed := by
    intro child member other otherLink
    rcases List.mem_cons.mp member with rfl | inMet
    · rw [link, Option.some_inj] at otherLink
      exact .inr otherLink.symm
    · rcases holds.closed child inMet other otherLink with inMet | rfl
      · exact .inl (List.mem_cons_of_mem _ inMet)
      · exact .inl List.mem_cons_self

/-- A walk that comes to an id it met leads to nothing that it has not met. -/
theorem Met.mem_of_leadsUp {met : List Text} (holds : Met s met id) (again : id ∈ met)
    (leads : s.LeadsUp id ancestor) : ancestor ∈ met := by
  refine leads.of_closed (fun child parent inMet link => ?_) again
  rcases holds.closed child inMet parent link with inMet | rfl
  · exact inMet
  · exact again

/-- A walk that finds its target went up to it. -/
theorem leadsTo_sound {bound : Nat} {met : List Text} (walked : s.leadsTo target bound met id) :
    id = target ∨ s.LeadsUp id target := by
  induction bound generalizing met id with
  | zero => simp [leadsTo] at walked
  | succ bound ih =>
      rw [leadsTo] at walked
      split at walked
      · cases walked
      · split at walked
        · next isTarget => exact .inl isTarget
        · split at walked
          · cases walked
          · next n found =>
              exact .inr ((leadsUp_of_parent? (parent?_of_find? found)).mpr (ih walked))

/-- A walk with a large enough bound finds all that it goes up to. -/
theorem leadsTo_complete {bound : Nat} {met : List Text} (unreserved : root ∉ s.ids)
    (notRoot : target ≠ root) (holds : Met s met id) (enough : s.size < bound + met.length)
    (fresh : target ∉ met) (leads : id = target ∨ s.LeadsUp id target) :
    s.leadsTo target bound met id := by
  induction bound generalizing met id with
  | zero =>
      have few := holds.length_le
      omega
  | succ bound ih =>
      rw [leadsTo]
      have notAtRoot : id ≠ root := by
        rintro rfl
        rcases leads with isTarget | leads
        · exact notRoot isTarget.symm
        · exact unreserved leads.mem_ids
      have notMet : id ∉ met := by
        intro again
        rcases leads with isTarget | leads
        · exact fresh (isTarget ▸ again)
        · exact fresh (holds.mem_of_leadsUp again leads)
      rw [if_neg (by simp [notAtRoot, notMet])]
      by_cases isTarget : id = target
      · rw [if_pos isTarget]
      · rw [if_neg isTarget]
        have leadsOn : s.LeadsUp id target := leads.resolve_left isTarget
        obtain ⟨n, found⟩ := exists_find? leadsOn.mem_ids
        have link := parent?_of_find? found
        simp only [found]
        refine ih (holds.step notMet link) ?_ ?_ ((leadsUp_of_parent? link).mp leadsOn)
        · rw [List.length_cons]
          omega
        · simp [Ne.symm isTarget, fresh]

/-- The test for a circle is exact: following the parents of a node leads back to it. -/
theorem onCycle_iff (unreserved : root ∉ s.ids) (found : s.find? n.id = some n) :
    s.onCycle n ↔ s.LeadsUp n.id n.id := by
  have link := parent?_of_find? found
  have notRoot : n.id ≠ root := by
    intro isRoot
    exact unreserved (isRoot ▸ mem_ids_of_find? found)
  rw [leadsUp_of_parent? link]
  constructor
  · exact leadsTo_sound
  · intro leads
    refine leadsTo_complete unreserved notRoot ⟨List.nodup_nil, List.nil_subset _, by simp⟩ ?_
      List.not_mem_nil leads
    simp

/-- The ancestors that a walk collects are nodes above that it had not met. -/
theorem ancestorsFrom_sound {bound : Nat} {met : List Text}
    (member : target ∈ s.ancestorsFrom bound met id) :
    target ∈ s.ids ∧ target ∉ met ∧ s.LeadsUp id target := by
  induction bound generalizing met id with
  | zero => simp [ancestorsFrom] at member
  | succ bound ih =>
      rw [ancestorsFrom] at member
      split at member
      · cases member
      · next n found =>
          have link := parent?_of_find? found
          split at member
          · cases member
          · next goesOn =>
              simp only [not_or, Bool.not_eq_true', Bool.not_eq_false] at goesOn
              rcases List.mem_cons.mp member with rfl | above
              · exact ⟨contains_iff.mp goesOn.2.2, goesOn.2.1, .single link⟩
              · obtain ⟨isNode, fresh, leads⟩ := ih above
                refine ⟨isNode, fun inMet => fresh (List.mem_cons_of_mem _ inMet), ?_⟩
                exact (leadsUp_of_parent? link).mpr (.inr leads)

/-- A walk with a large enough bound collects all nodes above that it had not met. -/
theorem ancestorsFrom_complete {bound : Nat} {met : List Text} (unreserved : root ∉ s.ids)
    (found : s.find? id = some n) (holds : Met s met n.parent)
    (enough : s.size < bound + met.length) (isNode : target ∈ s.ids) (fresh : target ∉ met)
    (leads : n.parent = target ∨ s.LeadsUp n.parent target) :
    target ∈ s.ancestorsFrom bound met id := by
  induction bound generalizing met id n with
  | zero =>
      have few := holds.length_le
      omega
  | succ bound ih =>
      have notAtRoot : n.parent ≠ root := by
        intro atRoot
        rw [atRoot] at leads
        rcases leads with isTarget | leads
        · exact unreserved (isTarget ▸ isNode)
        · exact unreserved leads.mem_ids
      have notMet : n.parent ∉ met := by
        intro again
        rcases leads with isTarget | leads
        · exact fresh (isTarget ▸ again)
        · exact fresh (holds.mem_of_leadsUp again leads)
      have parentIsNode : n.parent ∈ s.ids := by
        rcases leads with isTarget | leads
        · exact isTarget ▸ isNode
        · exact leads.mem_ids
      rw [ancestorsFrom]
      simp only [found]
      rw [if_neg (by simp [notAtRoot, notMet, contains_iff.mpr parentIsNode])]
      by_cases isTarget : n.parent = target
      · exact isTarget ▸ List.mem_cons_self
      · obtain ⟨p, pFound⟩ := exists_find? parentIsNode
        have pLink := parent?_of_find? pFound
        have leadsOn := leads.resolve_left isTarget
        refine List.mem_cons_of_mem _ (ih pFound (holds.step notMet pLink) ?_ ?_
          ((leadsUp_of_parent? pLink).mp leadsOn))
        · rw [List.length_cons]
          omega
        · simp [Ne.symm isTarget, fresh]

/-- The chain of parents of a node holds exactly the other nodes that its parents lead to. -/
theorem mem_ancestors (unreserved : root ∉ s.ids) :
    target ∈ s.ancestors id ↔ target ∈ s.ids ∧ target ≠ id ∧ s.LeadsUp id target := by
  constructor
  · intro member
    obtain ⟨isNode, fresh, leads⟩ := ancestorsFrom_sound member
    exact ⟨isNode, by simpa using fresh, leads⟩
  · rintro ⟨isNode, other, leads⟩
    obtain ⟨n, found⟩ := exists_find? leads.mem_ids
    have link := parent?_of_find? found
    have start : Met s [] id := ⟨List.nodup_nil, List.nil_subset _, by simp⟩
    refine ancestorsFrom_complete unreserved found (start.step List.not_mem_nil link) ?_ isNode
      (by simpa using other) ((leadsUp_of_parent? link).mp leads)
    simp

/-- What is below a node, a circle through it apart. -/
theorem mem_descendants (unreserved : root ∉ s.ids) (isNode : id ∈ s.ids) :
    target ∈ s.descendants id ↔ target ≠ id ∧ s.LeadsUp target id := by
  have notRoot : id ≠ root := fun isRoot => unreserved (isRoot ▸ isNode)
  rw [descendants, List.mem_filter, isBelow, if_neg notRoot, List.elem_iff, mem_ancestors unreserved]
  constructor
  · exact fun ⟨_, _, other, leads⟩ => ⟨other.symm, leads⟩
  · exact fun ⟨other, leads⟩ => ⟨leads.mem_ids, isNode, other.symm, leads⟩

namespace IsRooted

/-- Only links matter. -/
theorem congr (rooted : IsRooted s) (same : t.links = s.links) : IsRooted t where
  distinct := ids_congr same ▸ rooted.distinct
  unreserved := ids_congr same ▸ rooted.unreserved
  grounded := by
    intro n member
    obtain ⟨m, inStore, sameLink⟩ := exists_link same member
    have sameId : m.id = n.id := congrArg Link.id sameLink
    exact sameId ▸ (rooted.grounded m inStore).congr same

/-- In a rooted store every node is grounded. -/
theorem grounded_of_mem (rooted : IsRooted s) (member : id ∈ s.ids) : s.Grounded id := by
  obtain ⟨n, isNode, rfl⟩ := mem_ids.mp member
  exact rooted.grounded n isNode

/-- In a rooted store every node leads up to the root. -/
theorem leadsUp_root (rooted : IsRooted s) (member : id ∈ s.ids) : s.LeadsUp id root :=
  (rooted.grounded_of_mem member).leadsUp_root member rooted.unreserved

/-- In a rooted store no id leads up to itself. -/
theorem not_leadsUp_self (rooted : IsRooted s) : ¬s.LeadsUp id id := by
  intro circle
  exact (rooted.grounded_of_mem circle.mem_ids).not_leadsUp_self rooted.unreserved circle

/-- In a rooted store no node is its own parent. -/
theorem parent_ne (rooted : IsRooted s) (link : s.parent? id = some parent) : parent ≠ id := by
  rintro rfl
  exact rooted.not_leadsUp_self (.single link)

/-- The parent of a node is not within it. -/
theorem not_isWithin_parent (rooted : IsRooted s) (link : s.parent? id = some parent) : ¬s.IsWithin parent id := by
  rintro (same | above)
  · exact rooted.parent_ne link same
  · exact rooted.not_leadsUp_self (.head link above)

/-- A node leads to the root and to nodes. -/
theorem mem_of_leadsUp (rooted : IsRooted s) (leads : s.LeadsUp child ancestor) :
    ancestor = root ∨ ancestor ∈ s.ids := by
  have above := (rooted.grounded_of_mem leads.mem_ids).of_leadsUp rooted.unreserved leads
  cases above with
  | atRoot => exact .inl rfl
  | step link _ => exact .inr (mem_ids_of_parent? link)

/-- The parent of a node is the root or a node. -/
theorem parent_known (rooted : IsRooted s) (isNode : n ∈ s.nodes) : n.parent = root ∨ n.parent ∈ s.ids :=
  rooted.mem_of_leadsUp (.single (parent?_of_mem rooted.distinct isNode))

end IsRooted

namespace IsForest

/-- A forest is rooted. -/
theorem isRooted (forest : IsForest s) : IsRooted s := ⟨forest.distinct, forest.unreserved, forest.grounded⟩

/-- Only links matter. -/
theorem congr (forest : IsForest s) (same : t.links = s.links) : IsForest t where
  distinct := (forest.isRooted.congr same).distinct
  unreserved := (forest.isRooted.congr same).unreserved
  contained := by
    intro n member
    obtain ⟨m, inStore, sameLink⟩ := exists_link same member
    have sameParent : m.parent = n.parent := congrArg Link.parent sameLink
    rw [← sameParent]
    refine (forest.contained m inStore).imp_right ?_
    rintro ⟨p, isNode, isParent, isContainer⟩
    obtain ⟨q, inOther, sameLink⟩ := exists_link same.symm isNode
    refine ⟨q, inOther, (congrArg Link.id sameLink).trans isParent, ?_⟩
    have sameKind : q.kind = p.kind := congrArg Link.kind sameLink
    rwa [sameKind]
  grounded := (forest.isRooted.congr same).grounded

/-- A store without nodes is a forest. -/
theorem empty (canvasW canvasH : Value α) : IsForest (⟨canvasW, canvasH, []⟩ : Store α) where
  distinct := List.nodup_nil
  unreserved := List.not_mem_nil
  contained := by simp
  grounded := by simp

/-- The parent of a node is the root or a node. -/
theorem parent_known (forest : IsForest s) (isNode : n ∈ s.nodes) : n.parent = root ∨ n.parent ∈ s.ids :=
  forest.isRooted.parent_known isNode

/-- In a forest every node leads up to the root. -/
theorem leadsUp_root (forest : IsForest s) (member : id ∈ s.ids) : s.LeadsUp id root :=
  forest.isRooted.leadsUp_root member

/-- In a forest no id leads up to itself. -/
theorem not_leadsUp_self (forest : IsForest s) : ¬s.LeadsUp id id := forest.isRooted.not_leadsUp_self

/-- In a forest a node leads up to nothing but nodes and the root. -/
theorem mem_of_leadsUp (forest : IsForest s) (leads : s.LeadsUp child ancestor) :
    ancestor = root ∨ ancestor ∈ s.ids := forest.isRooted.mem_of_leadsUp leads

/-- Only the root and nodes have children. -/
theorem children_eq_nil (forest : IsForest s) (notRoot : parent ≠ root)
    (missing : parent ∉ s.ids) : s.children parent = [] := by
  refine List.filter_eq_nil_iff.mpr fun n isNode isChild => ?_
  rw [decide_eq_true_eq] at isChild
  rcases forest.contained n isNode with atRoot | ⟨p, pIsNode, isParent, -⟩
  · exact notRoot (isChild ▸ atRoot)
  · exact missing (isChild ▸ isParent ▸ id_mem_ids pIsNode)

/-- In a forest the walk up finds exactly what is above. -/
theorem isBelow_iff (forest : IsForest s) : s.isBelow child ancestor ↔ s.LeadsUp child ancestor := by
  rw [isBelow]
  split
  · next isRoot =>
      subst isRoot
      rw [contains_iff]
      exact ⟨forest.leadsUp_root,
        LeadsUp.mem_ids⟩
  · next notRoot =>
      rw [List.elem_iff, mem_ancestors forest.unreserved]
      constructor
      · exact fun holds => holds.2.2
      · intro leads
        refine ⟨(forest.mem_of_leadsUp leads).resolve_left notRoot, ?_, leads⟩
        rintro rfl
        exact forest.not_leadsUp_self leads

end IsForest

/-- A change of a node that keeps its link keeps all links. -/
theorem links_modifyNode {f : Node α → Node α} (keeps : ∀ n, (f n).link = n.link) :
    (s.modifyNode id f).links = s.links := by
  simp only [links, modifyNode, List.map_map]
  refine List.map_congr_left fun n _ => ?_
  simp only [Function.comp_apply]
  split
  · exact keeps n
  · rfl

/-- The ids stay where a node gets another parent. -/
theorem ids_setParent : (s.modifyNode id (·.setParent parent)).ids = s.ids :=
  ids_modifyNode fun _ => rfl

/-- A node is found with its new parent, and any other one as it was. -/
theorem find?_setParent : (s.modifyNode id (·.setParent parent)).find? child =
    (s.find? child).map fun n => if n.id = id then n.setParent parent else n :=
  find?_modifyNode fun _ => rfl

/-- The new parent is that of the node, and any other parent stays. -/
theorem parent?_setParent :
    (s.modifyNode id (·.setParent parent)).parent? child =
      if child = id then (s.parent? child).map fun _ => parent else s.parent? child := by
  rw [parent?, find?_setParent, parent?]
  cases found : s.find? child with
  | none => simp
  | some n =>
      rw [Option.map_some, Option.map_some, id_of_find? found]
      split <;> rfl

/-- A node may go under the root, and under a container that is not below it. -/
def Admits (s : Store α) (parent id : Text) : Prop :=
  parent = root ∨
    (∃ p ∈ s.nodes, p.id = parent ∧ p.kind.isContainer) ∧ parent ≠ id ∧ ¬s.LeadsUp parent id

/-- Moving one node to a place that admits it keeps every chain. -/
theorem Grounded.setParent (grounded : s.Grounded child)
    (start : parent = root ∨ parent ≠ id ∧ ¬s.LeadsUp parent id ∧ s.Grounded parent) :
    (s.modifyNode id (·.setParent parent)).Grounded child := by
  -- A chain that does not pass the moved node is as before.
  have avoiding : ∀ {above}, s.Grounded above → above ≠ id → ¬s.LeadsUp above id →
      (s.modifyNode id (·.setParent parent)).Grounded above := by
    intro above groundedAbove
    induction groundedAbove with
    | atRoot => exact fun _ _ => .atRoot
    | @step lower upper link _ ih =>
        intro other notBelow
        rw [leadsUp_of_parent? link, not_or] at notBelow
        refine .step ?_ (ih notBelow.1 notBelow.2)
        rw [parent?_setParent, if_neg other, link]
  have placed : (s.modifyNode id (·.setParent parent)).Grounded parent := by
    rcases start with rfl | ⟨other, notBelow, groundedParent⟩
    · exact .atRoot
    · exact avoiding groundedParent other notBelow
  induction grounded with
  | atRoot => exact .atRoot
  | @step lower upper link _ ih =>
      by_cases here : lower = id
      · refine .step ?_ placed
        rw [parent?_setParent, if_pos here, link, Option.map_some]
      · refine .step ?_ ih
        rw [parent?_setParent, if_neg here, link]

namespace IsForest

/-- A forest stays one where a node goes to a parent that it may have. -/
theorem setParent (forest : IsForest s) (admits : s.Admits parent id) :
    IsForest (s.modifyNode id (·.setParent parent)) where
  distinct := by
    rw [ids_setParent]
    exact forest.distinct
  unreserved := by
    rw [ids_setParent]
    exact forest.unreserved
  contained := by
    have kept : ∀ p ∈ s.nodes, p.kind.isContainer → ∃ q ∈ (s.modifyNode id (·.setParent parent)).nodes,
        q.id = p.id ∧ q.kind.isContainer := by
      intro p isNode isContainer
      refine ⟨_, List.mem_map_of_mem isNode, ?_⟩
      split <;> exact ⟨rfl, isContainer⟩
    intro n member
    obtain ⟨m, isNode, rfl⟩ := List.mem_map.mp member
    split
    · refine admits.imp_right ?_
      rintro ⟨⟨p, isNode, rfl, isContainer⟩, -⟩
      exact kept p isNode isContainer
    · refine (forest.contained m isNode).imp_right ?_
      rintro ⟨p, isNode, isParent, isContainer⟩
      exact isParent ▸ kept p isNode isContainer
  grounded := by
    intro n member
    obtain ⟨m, isNode, rfl⟩ := List.mem_map.mp member
    have grounded : (s.modifyNode id (·.setParent parent)).Grounded m.id :=
      (forest.grounded m isNode).setParent (admits.imp_right fun ⟨⟨p, isNode, isParent, _⟩, other, notBelow⟩ =>
        ⟨other, notBelow, isParent ▸ forest.grounded p isNode⟩)
    split <;> exact grounded

/-- A new leaf. -/
theorem add (forest : IsForest s) (fresh : n.id ∉ s.ids) (notRoot : n.id ≠ root)
    (contained : n.parent = root ∨ ∃ p ∈ s.nodes, p.id = n.parent ∧ p.kind.isContainer) :
    IsForest { s with nodes := s.nodes ++ [n] } := by
  have inclusion : ∀ {m : Node α}, m ∈ s.nodes → m ∈ s.nodes ++ [n] := List.mem_append_left _
  have distinct : ((s.nodes ++ [n]).map Node.id).Nodup := by
    rw [List.map_append, List.nodup_append]
    refine ⟨forest.distinct, List.nodup_singleton _, ?_⟩
    rintro id member _ isNew rfl
    exact fresh (List.mem_singleton.mp isNew ▸ member)
  have linked : ∀ m ∈ s.nodes ++ [n],
      (⟨s.canvasW, s.canvasH, s.nodes ++ [n]⟩ : Store α).parent? m.id = some m.parent :=
    fun m member => parent?_of_mem distinct member
  have old : ∀ {id}, s.Grounded id →
      (⟨s.canvasW, s.canvasH, s.nodes ++ [n]⟩ : Store α).Grounded id := by
    intro id grounded
    induction grounded with
    | atRoot => exact .atRoot
    | @step child parent link _ ih =>
        obtain ⟨m, found⟩ := exists_find? (mem_ids_of_parent? link)
        rw [parent?_of_find? found] at link
        rw [← id_of_find? found]
        exact .step (linked m (inclusion (mem_of_find? found))) (Option.some_inj.mp link ▸ ih)
  refine ⟨distinct, ?_, ?_, ?_⟩
  · have unreserved := forest.unreserved
    simp only [ids, List.map_append, List.mem_append, not_or] at unreserved ⊢
    exact ⟨unreserved, by simpa using notRoot.symm⟩
  · intro m member
    have holds : m.parent = root ∨ ∃ p ∈ s.nodes, p.id = m.parent ∧ p.kind.isContainer := by
      rcases List.mem_append.mp member with isOld | isNew
      · exact forest.contained m isOld
      · rwa [List.mem_singleton.mp isNew]
    rcases holds with isRoot | ⟨p, isNode, isParent⟩
    · exact .inl isRoot
    · exact .inr ⟨p, inclusion isNode, isParent⟩
  · intro m member
    rcases List.mem_append.mp member with isOld | isNew
    · exact old (forest.grounded m isOld)
    · refine .step (linked m member) ?_
      rw [List.mem_singleton.mp isNew]
      rcases contained with atRoot | ⟨p, isNode, isParent, -⟩
      · exact atRoot ▸ .atRoot
      · exact isParent ▸ old (forest.grounded p isNode)

/-- Nodes removed together with everything below them. -/
theorem removeAll (forest : IsForest s) {removed : List Text}
    (closed : ∀ n ∈ s.nodes, n.parent ∈ removed → n.id ∈ removed) :
    IsForest (s.removeAll removed) := by
  have kept : ∀ {m : Node α}, m ∈ (s.removeAll removed).nodes ↔ m ∈ s.nodes ∧ m.id ∉ removed := by
    simp [Store.removeAll]
  have part : List.Sublist (s.removeAll removed).ids s.ids := List.filter_sublist.map _
  have distinct : (s.removeAll removed).ids.Nodup := forest.distinct.sublist part
  refine ⟨distinct, fun member => forest.unreserved (part.subset member), ?_, ?_⟩
  · intro n member
    obtain ⟨isNode, stays⟩ := kept.mp member
    refine (forest.contained n isNode).imp_right ?_
    rintro ⟨p, pIsNode, isParent, isContainer⟩
    refine ⟨p, kept.mpr ⟨pIsNode, fun isRemoved => stays ?_⟩, isParent, isContainer⟩
    exact closed n isNode (isParent ▸ isRemoved)
  · have grounded : ∀ {id}, s.Grounded id → id ∉ removed → (s.removeAll removed).Grounded id := by
      intro id grounded
      induction grounded with
      | atRoot => exact fun _ => .atRoot
      | @step child parent link _ ih =>
          intro stays
          obtain ⟨m, found⟩ := exists_find? (mem_ids_of_parent? link)
          have isNode := mem_of_find? found
          rw [parent?_of_find? found, Option.some_inj] at link
          rw [← id_of_find? found] at stays ⊢
          refine .step (parent?_of_mem distinct (kept.mpr ⟨isNode, stays⟩)) ?_
          rw [link]
          exact ih fun isRemoved => stays (closed m isNode (link ▸ isRemoved))
    intro n member
    obtain ⟨isNode, stays⟩ := kept.mp member
    exact grounded (forest.grounded n isNode) stays

end IsForest

end Store

end LayoutDesigner
