import LayoutDesigner.Fault

/-!
# Edits

An edit changes a state and may fail on the way. What was changed before the failure stays changed,
so the outcome of an edit always has a state.
-/

namespace LayoutDesigner

/-- A change of a state of type `σ` that answers with a `β` or fails. -/
abbrev Edit (σ β : Type) := EStateM Fault σ β

instance {σ : Type} : MonadLift (Except Fault) (EStateM Fault σ) where
  monadLift
    | .ok value => pure value
    | .error fault => throw fault

namespace Edit

variable {σ τ β : Type}

/-- What an edit answers, without the state it leaves. -/
def answer : EStateM.Result Fault σ β → Except Fault β
  | .ok value _ => .ok value
  | .error fault _ => .error fault

/-- The state that an edit leaves, whether it fails or not. -/
def state : EStateM.Result Fault σ β → σ
  | .ok _ s => s
  | .error _ s => s

/-- Run an edit of a part of the state. The part is written back also where the edit fails. -/
def focus (get : σ → τ) (set : σ → τ → σ) (edit : Edit τ β) : Edit σ β := fun s =>
  match edit (get s) with
  | .ok value part => .ok value (set s part)
  | .error fault part => .error fault (set s part)

end Edit

end LayoutDesigner
