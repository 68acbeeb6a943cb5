import LayoutDesigner.Sorting
import LayoutDesigner.Proofs.Edit

/-!
# Sorting keeps the items

Whatever the comparison answers, a sorted list has the items that came, each as often as before.
-/

namespace LayoutDesigner.Sorting

variable {α : Type} {less : α → α → Except Fault Bool} {x last : α} {items sorted more others : List α}

/-- A run at the start and what follows it are the items that came. -/
theorem run_ok {falling : Bool} (ran : run less falling last items = .ok (more, others)) :
    more ++ others = items := by
  induction items generalizing last more with
  | nil =>
      obtain ⟨rfl, rfl⟩ := Prod.mk.inj (Except.ok.inj ran)
      rfl
  | cons x rest ih =>
      obtain ⟨isLess, -, ran⟩ := bind_eq_ok.mp ran
      split at ran
      · obtain ⟨⟨further, _⟩, isRest, ran⟩ := bind_eq_ok.mp ran
        obtain ⟨rfl, rfl⟩ := Prod.mk.inj (Except.ok.inj ran)
        rw [List.cons_append, ih isRest]
      · obtain ⟨rfl, rfl⟩ := Prod.mk.inj (Except.ok.inj ran)
        rfl

/-- The place of an item is between the bounds that are known of it. -/
theorem placeOf_le {low high place : Nat} (found : placeOf less x sorted low high = .ok place)
    (ordered : low ≤ high) : place ≤ high := by
  fun_induction placeOf less x sorted low high with
  | case1 low high below missing => exact Except.ok.inj found ▸ ordered
  | case2 => cases found
  | case3 low high below y _ _ ih =>
      have half := ih found (by omega)
      omega
  | case4 low high below y _ _ ih => exact ih found (by omega)
  | case5 low high above => exact Except.ok.inj found ▸ ordered

/-- Inserting adds the item and loses none. -/
theorem insert_perm (inserted : insert less sorted x = .ok items) : items.Perm (x :: sorted) := by
  obtain ⟨place, found, inserted⟩ := bind_eq_ok.mp inserted
  obtain rfl := Except.ok.inj inserted
  exact List.perm_insertIdx x sorted (placeOf_le found (Nat.zero_le _))

/-- Sorting only reorders. -/
theorem sort_perm (isSorted : sort less items = .ok sorted) : sorted.Perm items := by
  have inserts : ∀ {others start sorted : List α}, others.foldlM (insert less) start = .ok sorted →
      sorted.Perm (start ++ others) := by
    intro others
    induction others with
    | nil =>
        intro start sorted folded
        obtain rfl := Except.ok.inj folded
        simp
    | cons x rest ih =>
        intro start sorted folded
        rw [List.foldlM_cons] at folded
        obtain ⟨middle, inserted, folded⟩ := bind_eq_ok.mp folded
        refine (ih folded).trans (((insert_perm inserted).append_right rest).trans ?_)
        exact List.perm_middle.symm
  match items, isSorted with
  | [], isSorted => rw [← Except.ok.inj isSorted]
  | [x], isSorted => rw [← Except.ok.inj isSorted]
  | first :: second :: rest, isSorted =>
      obtain ⟨falling, -, isSorted⟩ := bind_eq_ok.mp isSorted
      obtain ⟨⟨more, others⟩, ran, isSorted⟩ := bind_eq_ok.mp isSorted
      refine (inserts isSorted).trans ?_
      rw [← run_ok ran]
      cases falling with
      | false => exact .refl _
      | true => exact (List.reverse_perm _).append_right others

end LayoutDesigner.Sorting
