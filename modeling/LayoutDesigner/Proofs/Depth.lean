import LayoutDesigner.Proofs.Forest

/-!
# How deep a node is

Where the parents of a node lead to the root, the walk up passes each of them once and misses none: the
chain of a node is its parent followed by the chain of that. So the level of a node is one below that of
its parent and never more than the number of nodes, and what every parent has where all its children
have it, is true of whatever comes to the root. The links of other nodes may lead nowhere or in a circle.
-/

namespace LayoutDesigner.Store

variable {α : Type} {s : Store α} {id parent : Text} {chain : List Text}

/-- What leads up to the root is grounded. -/
theorem Grounded.of_leadsUp_root (leads : s.LeadsUp id root) : s.Grounded id := by
  induction leads using Relation.TransGen.head_induction_on with
  | single link => exact .step link .atRoot
  | head link _ ih => exact .step link ih

/-- The parents of a node up to the root, nearest first and without the root. -/
inductive Climbs (s : Store α) : (id : Text) → (chain : List Text) → Prop
  | top {id : Text} (link : s.parent? id = some root) : Climbs s id []
  | step {id parent : Text} {chain : List Text} (link : s.parent? id = some parent) (notRoot : parent ≠ root)
      (above : Climbs s parent chain) : Climbs s id (parent :: chain)

/-- A node that comes to the root has such a chain. -/
theorem Grounded.exists_climbs (grounded : s.Grounded id) (notRoot : id ≠ root) : ∃ chain, s.Climbs id chain := by
  induction grounded with
  | atRoot => exact absurd rfl notRoot
  | @step child parent link _ ih =>
      by_cases atRoot : parent = root
      · exact ⟨[], .top (atRoot ▸ link)⟩
      · obtain ⟨chain, climbs⟩ := ih atRoot
        exact ⟨parent :: chain, .step link atRoot climbs⟩

namespace Climbs

/-- An id that a chain climbs from is grounded. -/
theorem grounded (climbs : s.Climbs id chain) : s.Grounded id := by
  induction climbs with
  | top link => exact .step link .atRoot
  | step link _ _ ih => exact .step link ih

/-- An id that a chain climbs from is that of a node. -/
theorem mem_ids (climbs : s.Climbs id chain) : id ∈ s.ids := by
  cases climbs with
  | top link => exact mem_ids_of_parent? link
  | step link _ _ => exact mem_ids_of_parent? link

/-- The id leads up to all that are on its chain. -/
theorem leadsUp (climbs : s.Climbs id chain) : ∀ above ∈ chain, s.LeadsUp id above := by
  induction climbs with
  | top => simp
  | @step id parent chain link _ _ ih =>
      intro above listed
      rw [leadsUp_of_parent? link]
      exact (List.mem_cons.mp listed).imp Eq.symm (ih above)

/-- No node is passed twice, as none of them is on a circle. -/
theorem nodup (unreserved : root ∉ s.ids) (climbs : s.Climbs id chain) : (id :: chain).Nodup := by
  have notAbove : id ∉ chain := fun again =>
    climbs.grounded.not_leadsUp_self unreserved (climbs.leadsUp id again)
  refine List.nodup_cons.mpr ⟨notAbove, ?_⟩
  clear notAbove
  induction climbs with
  | top => exact List.nodup_nil
  | @step id parent chain link _ above ih =>
      refine List.nodup_cons.mpr ⟨fun again => ?_, ih⟩
      exact above.grounded.not_leadsUp_self unreserved (above.leadsUp parent again)

/-- A chain and the id that it starts from are nodes. -/
theorem subset_ids (climbs : s.Climbs id chain) : id :: chain ⊆ s.ids := by
  induction climbs with
  | top link => simpa using mem_ids_of_parent? link
  | step link _ _ ih => exact List.cons_subset.mpr ⟨mem_ids_of_parent? link, ih⟩

/-- A chain is shorter than the store is large. -/
theorem length_lt (unreserved : root ∉ s.ids) (climbs : s.Climbs id chain) : chain.length < s.size := by
  rw [← length_ids]
  exact (List.subperm_of_subset (climbs.nodup unreserved) climbs.subset_ids).length_le

/-- A walk up with enough steps left passes the whole chain, where it has met nothing of it. -/
theorem ancestorsFrom_eq {bound : Nat} {met : List Text} (climbs : s.Climbs id chain) (distinct : chain.Nodup)
    (fresh : ∀ above ∈ chain, above ∉ met) (enough : chain.length ≤ bound) :
    s.ancestorsFrom bound met id = chain := by
  induction climbs generalizing bound met with
  | @top id link =>
      obtain ⟨n, found⟩ := exists_find? (mem_ids_of_parent? link)
      rw [parent?_of_find? found, Option.some_inj] at link
      cases bound with
      | zero => rw [ancestorsFrom]
      | succ bound => simp [ancestorsFrom, found, link]
  | @step id parent chain link notRoot above ih =>
      obtain ⟨n, found⟩ := exists_find? (mem_ids_of_parent? link)
      rw [parent?_of_find? found, Option.some_inj] at link
      have goesOn : ¬(n.parent = root ∨ n.parent ∈ met ∨ (!s.contains n.parent) = true) := by
        rw [link]
        simp [notRoot, fresh parent List.mem_cons_self, contains_iff.mpr above.mem_ids]
      rw [List.nodup_cons] at distinct
      cases bound with
      | zero => simp at enough
      | succ bound =>
          simp only [ancestorsFrom, found]
          rw [if_neg goesOn, link, ih distinct.2 ?_ (by simpa using enough)]
          intro other listed
          rw [List.mem_cons, not_or]
          exact ⟨fun same => distinct.1 (same ▸ listed), fresh other (List.mem_cons_of_mem _ listed)⟩

/-- The walk up finds exactly the chain. -/
theorem ancestors_eq (unreserved : root ∉ s.ids) (climbs : s.Climbs id chain) : s.ancestors id = chain := by
  have distinct := List.nodup_cons.mp (climbs.nodup unreserved)
  refine climbs.ancestorsFrom_eq distinct.2 (fun above listed => ?_) (climbs.length_lt unreserved).le
  rw [List.mem_singleton]
  rintro rfl
  exact distinct.1 listed

end Climbs

section

variable (unreserved : root ∉ s.ids)

include unreserved

/-- A node under the root has no ancestors. -/
theorem ancestors_of_top (link : s.parent? id = some root) : s.ancestors id = [] :=
  (Climbs.top link).ancestors_eq unreserved

/-- The ancestors of a node are its parent and the ancestors of this one. -/
theorem ancestors_of_parent? (above : s.Grounded parent) (notRoot : parent ≠ root)
    (link : s.parent? id = some parent) : s.ancestors id = parent :: s.ancestors parent := by
  obtain ⟨chain, climbs⟩ := above.exists_climbs notRoot
  rw [(Climbs.step link notRoot climbs).ancestors_eq unreserved, climbs.ancestors_eq unreserved]

end

/-- How far a parent is below the root, which is at the top. -/
def level (s : Store α) (id : Text) : Nat := if id = root then 0 else s.depthOf id + 1

@[simp] theorem level_root (s : Store α) : s.level root = 0 := if_pos rfl

/-- Below the root, the level is one more than the depth. -/
theorem level_of_ne (notRoot : id ≠ root) : s.level id = s.depthOf id + 1 := if_neg notRoot

section

variable (unreserved : root ∉ s.ids)

include unreserved

/-- A node has as many nodes above it as its parent's level says. -/
theorem depthOf_of_parent? (above : s.Grounded parent) (link : s.parent? id = some parent) :
    s.depthOf id = s.level parent := by
  by_cases atRoot : parent = root
  · rw [atRoot, level_root, depthOf, ancestors_of_top unreserved (atRoot ▸ link), List.length_nil]
  · rw [level_of_ne atRoot, depthOf, ancestors_of_parent? unreserved above atRoot link, List.length_cons, depthOf]

/-- A node is one level below its parent. -/
theorem level_of_parent? (above : s.Grounded parent) (link : s.parent? id = some parent) :
    s.level id = s.level parent + 1 := by
  have notRoot : id ≠ root := fun atRoot => unreserved (atRoot ▸ mem_ids_of_parent? link)
  rw [level_of_ne notRoot, depthOf_of_parent? unreserved above link]

/-- No level is greater than the number of nodes. -/
theorem level_le_size (grounded : s.Grounded id) : s.level id ≤ s.size := by
  by_cases atRoot : id = root
  · rw [atRoot, level_root]
    exact Nat.zero_le _
  · obtain ⟨chain, climbs⟩ := grounded.exists_climbs atRoot
    rw [level_of_ne atRoot, depthOf, climbs.ancestors_eq unreserved]
    exact climbs.length_lt unreserved

/-- Induction from the last level up: there are only finitely many levels below an id. -/
theorem Grounded.descend {holds : ∀ id, s.Grounded id → Prop}
    (step : ∀ parent (grounded : s.Grounded parent),
      (∀ child (link : s.parent? child = some parent), holds child (.step link grounded)) → holds parent grounded)
    {id : Text} (grounded : s.Grounded id) : holds id grounded := by
  have within : ∀ (rest : Nat) (id : Text) (grounded : s.Grounded id), s.size < rest + s.level id →
      holds id grounded := by
    intro rest
    induction rest with
    | zero =>
        intro id grounded deep
        have := level_le_size unreserved grounded
        omega
    | succ rest ih =>
        intro id grounded deep
        refine step id grounded fun child link => ih child (.step link grounded) ?_
        rw [level_of_parent? unreserved grounded link]
        omega
  exact within (s.size + 1) id grounded (by omega)

end

end LayoutDesigner.Store
