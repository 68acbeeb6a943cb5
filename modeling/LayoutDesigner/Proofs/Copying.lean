import LayoutDesigner.Store
import Mathlib.Algebra.Order.BigOperators.Group.List
import Mathlib.Algebra.Order.Group.Nat

/-!
# What can be copied

A copy takes two nested calls for each value inside another one, so a value can be copied exactly where
its height leaves room for that. The copy is the value itself. Nothing but the properties of
extensions can be high: so a store can be written exactly where these can be copied.
-/

namespace LayoutDesigner

variable {α : Type} {depth : Nat}

namespace Value

mutual

/-- How many values are inside one another, the value itself not counted. -/
def height : Value α → Nat
  | .arr items => heightOfItems items
  | .obj members => heightOfMembers members
  | _ => 0

/-- The height of a list of items, each of which is inside the list. -/
def heightOfItems : List (Value α) → Nat
  | [] => 0
  | v :: rest => max (height v + 1) (heightOfItems rest)

/-- The height of a list of members, each of which is inside the object. -/
def heightOfMembers : List (Text × Value α) → Nat
  | [] => 0
  | (_, v) :: rest => max (height v + 1) (heightOfMembers rest)

end

/-- Two calls for each value inside another one may be nested. -/
def IsCopyable (depth : Nat) (v : Value α) : Prop := 2 * v.height ≤ depth

instance {v : Value α} : Decidable (v.IsCopyable depth) := inferInstanceAs (Decidable (2 * v.height ≤ depth))

/-- A value where there is room for something, and else the fault that there is none. -/
def roomFor {β : Type} (room : Prop) [Decidable room] (value : β) : Except Fault β :=
  if room then .ok value else .error .tooDeep

/-- There is a value exactly where there is room for it. -/
theorem roomFor_ok_iff {β : Type} {room : Prop} [Decidable room] {value : β} :
    (∃ found, roomFor room value = .ok found) ↔ room := by
  rw [roomFor]
  split
  · next holds => exact iff_of_true ⟨value, rfl⟩ holds
  · next fails => exact iff_of_false (fun ⟨_, found⟩ => by cases found) fails

/-- What is found is the value that there is room for. -/
theorem roomFor_ok {β : Type} {room : Prop} [Decidable room] {value found : β}
    (isFound : roomFor room value = .ok found) : room ∧ value = found := by
  rw [roomFor] at isFound
  split at isFound
  · next holds => exact ⟨holds, Except.ok.inj isFound⟩
  · cases isFound

/-- The value is found exactly where there is room for it. -/
theorem roomFor_eq_ok {β : Type} {room : Prop} [Decidable room] {value : β} : roomFor room value = .ok value ↔ room :=
  ⟨fun found => (roomFor_ok found).1, fun holds => if_pos holds⟩

/-- What is made of a value has the same room. -/
theorem roomFor_map {β γ : Type} {room : Prop} [Decidable room] {value : β} (made : β → γ) :
    (roomFor room value >>= fun found => pure (made found)) = roomFor room (made value) := by
  rw [roomFor, roomFor]
  split <;> rfl

/-- Where a step needs room and the one after it needs some more, both have room where there is enough for both. -/
theorem roomFor_bind {β γ : Type} {first both : Prop} [Decidable first] [Decidable both] {value : β} {made : γ}
    {next : β → Except Fault γ} (second : Prop) [Decidable second]
    (later : first → next value = roomFor second made) (same : both ↔ first ∧ second) :
    roomFor first value >>= next = roomFor both made := by
  by_cases holds : first
  · rw [roomFor, if_pos holds]
    refine (later holds).trans ?_
    simp only [roomFor, same, holds, true_and]
  · rw [roomFor, if_neg holds, roomFor, if_neg fun isBoth => holds (same.mp isBoth).1]
    rfl

/-- There is something inside a copy where two calls may be nested. -/
theorem insideCopy_eq : insideCopy depth = roomFor (2 ≤ depth) (depth - 2) := by
  rw [insideCopy, roomFor]
  split <;> split <;> first | rfl | omega

mutual

/-- A value is its own copy where it is not too high, and has no copy else. -/
theorem copy_eq (depth : Nat) (v : Value α) : v.copy depth = roomFor (v.IsCopyable depth) v := by
  have leaf : ∀ {v : Value α}, v.height = 0 → .ok v = roomFor (v.IsCopyable depth) v := fun isLeaf =>
    (if_pos (show 2 * _ ≤ depth by omega)).symm
  cases v with
  | arr items =>
      rw [copy, copyItems_eq]
      exact roomFor_map Value.arr
  | obj members =>
      rw [copy, copyMembers_eq]
      exact roomFor_map Value.obj
  | null => exact leaf rfl
  | bool b => exact leaf rfl
  | num n => exact leaf rfl
  | str t => exact leaf rfl

/-- Items are their own copies where the highest of them is not too high. -/
theorem copyItems_eq (depth : Nat) (items : List (Value α)) :
    copyItems depth items = roomFor (2 * heightOfItems items ≤ depth) items := by
  cases items with
  | nil => rfl
  | cons v rest =>
      rw [copyItems, insideCopy_eq]
      refine roomFor_bind (v.IsCopyable (depth - 2) ∧ 2 * heightOfItems rest ≤ depth) (fun _ => ?_) ?_
      · rw [copy_eq]
        refine roomFor_bind (2 * heightOfItems rest ≤ depth) (fun _ => ?_) Iff.rfl
        rw [copyItems_eq]
        exact roomFor_map (v :: ·)
      · rw [IsCopyable, heightOfItems]
        omega

/-- Members are their own copies where the highest of them is not too high. -/
theorem copyMembers_eq (depth : Nat) (members : List (Text × Value α)) :
    copyMembers depth members = roomFor ((Value.obj members).IsCopyable depth) members := by
  cases members with
  | nil => rfl
  | cons member rest =>
      obtain ⟨key, v⟩ := member
      rw [copyMembers, insideCopy_eq]
      refine roomFor_bind (v.IsCopyable (depth - 2) ∧ (Value.obj rest).IsCopyable depth) (fun _ => ?_) ?_
      · rw [copy_eq]
        refine roomFor_bind ((Value.obj rest).IsCopyable depth) (fun _ => ?_) Iff.rfl
        rw [copyMembers_eq]
        exact roomFor_map ((key, v) :: ·)
      · simp only [IsCopyable, height, heightOfMembers]
        omega

end

/-- Of a list of checks each of which passes where there is room, all pass where there is room for all. -/
theorem forM_roomFor {β : Type} {check : β → Except Fault Unit} {room : β → Prop} [DecidablePred room]
    (checks : ∀ b, check b = roomFor (room b) ()) (bs : List β) :
    bs.forM check = roomFor (∀ b ∈ bs, room b) () := by
  induction bs with
  | nil => rfl
  | cons b rest ih =>
      change (check b >>= fun _ => rest.forM check) = _
      rw [checks]
      exact roomFor_bind _ (fun _ => ih) List.forall_mem_cons

end Value

namespace Extension

/-- The properties of the extension can be copied. -/
def IsCopyable (depth : Nat) (e : Extension α) : Prop := e.shownProps.IsCopyable depth

instance {e : Extension α} : Decidable (e.IsCopyable depth) :=
  inferInstanceAs (Decidable (e.shownProps.IsCopyable depth))

/-- The check passes exactly where the properties can be copied. -/
theorem needCopy_eq (e : Extension α) : e.needCopy depth = Value.roomFor (e.IsCopyable depth) () := by
  rw [needCopy, Value.copy_eq]
  change _ = Value.roomFor (e.shownProps.IsCopyable depth) ()
  rw [Value.roomFor, Value.roomFor]
  split <;> rfl

end Extension

/-- All extensions of the node can be copied. -/
def Node.IsCopyable (depth : Nat) (n : Node α) : Prop := ∀ e ∈ n.extensions, e.IsCopyable depth

instance {n : Node α} : Decidable (n.IsCopyable depth) :=
  inferInstanceAs (Decidable (∀ e ∈ n.extensions, e.IsCopyable depth))

/-- The record of a node can be written exactly where its extensions can be copied. -/
theorem Node.needCopies_eq (n : Node α) : n.needCopies depth = Value.roomFor (n.IsCopyable depth) () :=
  Value.forM_roomFor Extension.needCopy_eq n.extensions

/-- The node can be copied as a whole, with its extensions inside five more values. -/
def Node.IsCopyableWhole (depth : Nat) (n : Node α) : Prop := n.IsCopyable (depth - 10)

instance {n : Node α} : Decidable (n.IsCopyableWhole depth) := inferInstanceAs (Decidable (n.IsCopyable (depth - 10)))

/-- The check passes exactly where the node can be copied as a whole. -/
theorem Node.needCopy_eq (n : Node α) : n.needCopy depth = Value.roomFor (n.IsCopyableWhole depth) () :=
  needCopies_eq n

namespace Store

variable {s : Store α}

/-- All extensions of all nodes can be copied. -/
def IsCopyable (depth : Nat) (s : Store α) : Prop := ∀ n ∈ s.nodes, n.IsCopyable depth

instance : Decidable (s.IsCopyable depth) := inferInstanceAs (Decidable (∀ n ∈ s.nodes, n.IsCopyable depth))

/-- The records of all nodes can be written exactly where all extensions can be copied. -/
theorem needCopies_eq (s : Store α) : s.needCopies depth = Value.roomFor (s.IsCopyable depth) () :=
  Value.forM_roomFor Node.needCopies_eq s.nodes

end Store

end LayoutDesigner
