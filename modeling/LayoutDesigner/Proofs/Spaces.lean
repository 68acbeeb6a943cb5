import LayoutDesigner.Proofs.Depth
import LayoutDesigner.Proofs.Moored
import LayoutDesigner.Proofs.Resized

/-!
# Where spaces start

The space of a node starts where its box does, and that is where the space of its parent starts plus the
corner of the node there. So where a space starts is known from the root down, for every node whose
parents lead to the root.
-/

namespace LayoutDesigner

/-- Where the box of a node starts in the space of its parent. -/
def Node.corner (n : Node ℚ) : Point ℚ := (n.x - n.anchorX * n.w, n.y - n.anchorY * n.h)

namespace Store

variable {s : Store ℚ} {id : Text} {ids : List Text} {n : Node ℚ} {p start : Point ℚ}

/-- The origin is zero. -/
theorem origin_eq : (origin : Point ℚ) = 0 := Prod.ext Exact.zero_eq Exact.zero_eq

/-- Offsets are added to whatever they start from. -/
theorem offsetBy_add (ran : s.offsetBy start ids = .ok p) (q : Point ℚ) : s.offsetBy (start + q) ids = .ok (p + q) := by
  induction ids generalizing start with
  | nil =>
      obtain rfl := Except.ok.inj ran
      rfl
  | cons id rest ih =>
      rw [offsetBy, List.foldlM_cons] at ran ⊢
      obtain ⟨next, isNext, ran⟩ := bind_eq_ok.mp ran
      cases found : s.find? id with
      | none =>
          rw [found] at isNext
          cases isNext
      | some n =>
          rw [found] at isNext
          obtain ⟨corner, isCorner, isSum⟩ := bind_eq_ok.mp isNext
          obtain rfl : start + corner = next := Except.ok.inj isSum
          refine bind_eq_ok.mpr ⟨start + corner + q, ?_, ih ran⟩
          rw [add_right_comm]
          exact bind_eq_ok.mpr ⟨corner, isCorner, rfl⟩

section

variable (unreserved : root ∉ s.ids) (plain : s.IsPlain)

include unreserved plain

/-- A node's box starts at its corner in the space of its parent. -/
theorem absoluteTopLeft_of_parent (above : s.Grounded n.parent) (notRoot : n.parent ≠ root)
    (found : s.find? id = some n) (isStart : s.absoluteTopLeft n.parent = .ok start) :
    s.absoluteTopLeft id = .ok (start.1 + n.corner.1, start.2 + n.corner.2) := by
  obtain ⟨chain, climbs⟩ := above.exists_climbs notRoot
  obtain ⟨m, found'⟩ := exists_find? climbs.mem_ids
  rw [absoluteTopLeft, found'] at isStart
  obtain ⟨corner, isCorner, isSum⟩ := bind_eq_ok.mp isStart
  rw [absoluteTopLeft, found]
  refine bind_eq_ok.mpr ⟨n.corner, Node.localTopLeft_num (plain n (mem_of_find? found)), ?_⟩
  -- The walk starts at the node's own corner and goes on as it does from the parent, so only the start differs.
  rw [ancestors_of_parent? unreserved above notRoot (parent?_of_find? found), offsetBy, List.foldlM_cons, found']
  refine bind_eq_ok.mpr ⟨corner + n.corner, bind_eq_ok.mpr ⟨corner, isCorner, ?_⟩, offsetBy_add isSum n.corner⟩
  rw [add_comm corner]
  rfl

/-- So does its space, under the root as well. -/
theorem spaceOrigin_of_parent (above : s.Grounded n.parent) (found : s.find? id = some n)
    (isStart : s.spaceOrigin n.parent = .ok start) : s.spaceOrigin id = .ok (start + n.corner) := by
  have notRoot : id ≠ root := fun isRoot => unreserved (isRoot ▸ mem_ids_of_find? found)
  rw [spaceOrigin, if_neg notRoot]
  by_cases top : n.parent = root
  · rw [spaceOrigin, if_pos top] at isStart
    obtain rfl := Except.ok.inj isStart
    rw [absoluteTopLeft, found, ancestors_of_top unreserved (top ▸ parent?_of_find? found)]
    refine bind_eq_ok.mpr ⟨n.corner, Node.localTopLeft_num (plain n (mem_of_find? found)), ?_⟩
    rw [origin_eq, zero_add]
    rfl
  · rw [spaceOrigin, if_neg top] at isStart
    exact absoluteTopLeft_of_parent unreserved plain above top found isStart

/-- What leads to the root has a space that starts somewhere. -/
theorem Grounded.exists_spaceOrigin (grounded : s.Grounded id) : ∃ start, s.spaceOrigin id = .ok start := by
  induction grounded with
  | atRoot => exact ⟨origin, if_pos rfl⟩
  | @step child parent link above ih =>
      obtain ⟨start, isStart⟩ := ih
      obtain ⟨n, found⟩ := exists_find? (mem_ids_of_parent? link)
      obtain rfl := Option.some.inj ((parent?_of_find? found).symm.trans link)
      exact ⟨_, spaceOrigin_of_parent unreserved plain above found isStart⟩

end

end Store

end LayoutDesigner
