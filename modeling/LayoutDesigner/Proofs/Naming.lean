import LayoutDesigner.Script.Name
import LayoutDesigner.Proofs.Numerals
import Mathlib.Data.List.Nodup
import Mathlib.Data.List.Perm.Subperm

/-!
# Fresh names

A name that is handed out was never handed out before. Where a base is taken, one of the names with
the numerals after it is free: there are more of them than taken names, and no two are equal.
-/

namespace LayoutDesigner.Script

variable {taken : List Text} {base : Text}

/-- Different numbers make different names. -/
theorem numbered_injective (base : Text) : Function.Injective (numbered base) := by
  intro i j same
  exact Text.ofNat_injective (List.append_cancel_left same)

/-- Where the search ends with a taken name, every name that it looked at is taken. -/
theorem mem_of_firstFree {bound i : Nat} (found : firstFree taken base bound i ∈ taken) :
    ∀ j, i ≤ j → j ≤ i + bound → numbered base j ∈ taken := by
  induction bound generalizing i with
  | zero =>
      intro j low high
      obtain rfl : j = i := by omega
      simpa [firstFree] using found
  | succ bound ih =>
      rw [firstFree] at found
      split at found
      next isTaken =>
        intro j low high
        rcases Nat.eq_or_lt_of_le low with rfl | later
        · simpa using isTaken
        · exact ih found j later (by omega)
      next isFree => simp_all

/-- A free name is not taken. -/
theorem freeName_not_mem (taken : List Text) (base : Text) : freeName taken base ∉ taken := by
  intro again
  rw [freeName] at again
  split at again
  next =>
    -- More numbered names would be taken than there are taken names.
    have covered : (List.range' 2 (taken.length + 1)).map (numbered base) ⊆ taken := by
      intro name member
      obtain ⟨j, inRange, rfl⟩ := List.mem_map.mp member
      rw [List.mem_range'_1] at inRange
      exact mem_of_firstFree again j inRange.1 (by omega)
    have distinct : ((List.range' 2 (taken.length + 1)).map (numbered base)).Nodup :=
      List.Nodup.map (numbered_injective base) List.nodup_range'
    have few := (distinct.subperm covered).length_le
    rw [List.length_map, List.length_range'] at few
    omega
  next isFree => simp_all

namespace Names

/-- `later` are the names after the listed ones were handed out, none of which was taken. -/
structure Extends (names : Names) (fresh : List Text) (later : Names) : Prop where
  counted : later.counted = names.counted
  taken : later.taken = fresh.reverse ++ names.taken
  distinct : names.taken.Nodup → later.taken.Nodup

variable {names later last : Names} {fresh more : List Text}

/-- Names extend themselves by nothing. -/
theorem Extends.refl (names : Names) : Extends names [] names where
  counted := rfl
  taken := rfl
  distinct := id

/-- Extensions of names can be put together. -/
theorem Extends.trans (first : Extends names fresh later) (rest : Extends later more last) :
    Extends names (fresh ++ more) last where
  counted := rest.counted.trans first.counted
  taken := by rw [rest.taken, first.taken, List.reverse_append, List.append_assoc]
  distinct := fun start => rest.distinct (first.distinct start)

/-- What was handed out is taken. -/
theorem Extends.mem (extended : Extends names fresh later) {name : Text} (handed : name ∈ fresh) :
    name ∈ later.taken := by
  rw [extended.taken]
  exact List.mem_append_left _ (List.mem_reverse.mpr handed)

/-- What was taken before is taken. -/
theorem Extends.subset (extended : Extends names fresh later) : names.taken ⊆ later.taken := by
  intro name isTaken
  rw [extended.taken]
  exact List.mem_append_right _ isTaken

/-- What is claimed was not taken. -/
theorem claim_not_mem (names : Names) (base : Text) : (names.claim base).1 ∉ names.taken :=
  freeName_not_mem names.taken base

/-- A claim extends the names by what was claimed. -/
theorem extends_claim (names : Names) (base : Text) :
    Extends names [(names.claim base).1] (names.claim base).2 where
  counted := rfl
  taken := rfl
  distinct := fun start => List.nodup_cons.mpr ⟨claim_not_mem names base, start⟩

variable {α : Type}

/-- A node that has no variable yet gets a new one. -/
theorem ofNode_new {n : Node α} (unnamed : names.lookup n.id = none) :
    (names.ofNode n).1 ∉ names.taken ∧
      Extends names [(names.ofNode n).1] (names.ofNode n).2 ∧
      (names.ofNode n).2.nodeVariables = (n.id, (names.ofNode n).1) :: names.nodeVariables := by
  rw [ofNode, unnamed]
  by_cases counted : names.counted
  · simp only [counted, if_true]
    have fresh := freeName_not_mem names.taken (countedBase n (names.count + 1))
    exact ⟨fresh, ⟨counted.symm, rfl, fun start => List.nodup_cons.mpr ⟨fresh, start⟩⟩, rfl⟩
  · simp only [counted, Bool.false_eq_true, if_false]
    have fresh := freeName_not_mem names.taken (calledBase n)
    exact ⟨fresh, ⟨(by simp [claim, counted]), rfl, fun start => List.nodup_cons.mpr ⟨fresh, start⟩⟩, rfl⟩

/-- An extension always gets a new variable. -/
theorem ofExtension_new [Arith α] (names : Names) (owner : Text) (e : Extension α) :
    (names.ofExtension owner e).1 ∉ names.taken ∧
      Extends names [(names.ofExtension owner e).1] (names.ofExtension owner e).2 ∧
      (names.ofExtension owner e).2.nodeVariables = names.nodeVariables :=
  ⟨claim_not_mem names _, extends_claim names _, rfl⟩

end Names

end LayoutDesigner.Script
