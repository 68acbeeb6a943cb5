import LayoutDesigner.Edit
import Mathlib.Order.Defs.Unbundled

/-!
# Reasoning about edits

`Edit.Ends` says where one run of an edit ends: in a state and an answer that satisfy one
condition, or, where the edit fails, in a state that satisfies another. The equivalences below take
it apart along the steps of an edit, so that the outcome of a composed edit follows from what is
known of its parts. `Edit.Leaves` asks the same of the state in both outcomes, and `Edit.Keeps` says
that every run of an edit, also one that fails, leaves a state related to the one before; both are put
together from the steps in the same way.
-/

namespace LayoutDesigner

variable {σ τ β γ : Type}

namespace Edit

/-- From the state `s` the edit returns with `done`, or fails and leaves a state with `failed`. -/
def Ends (edit : Edit σ β) (s : σ) (done : β → σ → Prop) (failed : Fault → σ → Prop) : Prop :=
  match edit s with
  | .ok answer t => done answer t
  | .error fault t => failed fault t

section

variable {s : σ} {done : β → σ → Prop} {failed : Fault → σ → Prop}

/-- An edit that returns ends as is said of its answer. -/
theorem ends_of_ok {edit : Edit σ β} {answer : β} {t : σ} (ran : edit s = .ok answer t) :
    edit.Ends s done failed ↔ done answer t := by
  simp only [Ends, ran]

/-- An edit that fails ends as is said of its fault. -/
theorem ends_of_error {edit : Edit σ β} {fault : Fault} {t : σ} (ran : edit s = .error fault t) :
    edit.Ends s done failed ↔ failed fault t := by
  simp only [Ends, ran]

/-- The condition on a run that returned. -/
theorem Ends.returned {edit : Edit σ β} {answer : β} {t : σ} (ends : edit.Ends s done failed)
    (ran : edit s = .ok answer t) : done answer t :=
  (ends_of_ok ran).mp ends

/-- The condition on a run that failed. -/
theorem Ends.failure {edit : Edit σ β} {fault : Fault} {t : σ} (ends : edit.Ends s done failed)
    (ran : edit s = .error fault t) : failed fault t :=
  (ends_of_error ran).mp ends

/-- A condition on the state alone that both outcomes satisfy. -/
theorem Ends.state {edit : Edit σ β} {condition : σ → Prop}
    (ends : edit.Ends s (fun _ => condition) fun _ => condition) :
    condition (Edit.state (edit s)) := by
  cases ran : edit s with
  | ok answer t => exact ends.returned ran
  | error fault t => exact ends.failure ran

/-- An edit that answers returns, with its answer and the state that it leaves. -/
theorem eq_ok_of_answer {result : EStateM.Result Fault σ β} {value : β} (answered : (answer result).toOption = some value) :
    result = .ok value (state result) := by
  cases result with
  | ok returned t => exact congrArg (EStateM.Result.ok · t) (Option.some.inj answered)
  | error fault t => cases answered

/-- An edit of which nothing failing is admitted returns. -/
theorem Ends.ok {edit : Edit σ β} (ends : edit.Ends s done fun _ _ => False) :
    ∃ answer t, edit s = .ok answer t ∧ done answer t := by
  cases ran : edit s with
  | ok answer t => exact ⟨answer, t, rfl, ends.returned ran⟩
  | error fault t => exact (ends.failure ran).elim

/-- A run is known by where it ends. -/
theorem eq_of_ends {edit : Edit σ β} {result : EStateM.Result Fault σ β}
    (ends : edit.Ends s (fun answer t => result = .ok answer t) fun fault t => result = .error fault t) :
    edit s = result := by
  cases ran : edit s with
  | ok answer t => exact (ends.returned ran).symm
  | error fault t => exact (ends.failure ran).symm

/-- An edit ends as it ends. -/
theorem ends_self (edit : Edit σ β) (s : σ) :
    edit.Ends s (fun answer t => edit s = .ok answer t) fun fault t => edit s = .error fault t := by
  cases ran : edit s with
  | ok answer t => exact (ends_of_ok ran).mpr rfl
  | error fault t => exact (ends_of_error ran).mpr rfl

/-- Weaken both conditions. -/
theorem Ends.mono {edit : Edit σ β} {done' : β → σ → Prop} {failed' : Fault → σ → Prop}
    (ends : edit.Ends s done failed) (onReturn : ∀ answer t, done answer t → done' answer t)
    (onFailure : ∀ fault t, failed fault t → failed' fault t) : edit.Ends s done' failed' := by
  cases ran : edit s with
  | ok answer t => exact (ends_of_ok ran).mpr (onReturn answer t (ends.returned ran))
  | error fault t => exact (ends_of_error ran).mpr (onFailure fault t (ends.failure ran))

/-- Where failing is no matter, what holds of every answer and every state holds where the edit ends. -/
theorem ends_any {edit : Edit σ β} (onReturn : ∀ answer t, done answer t) : edit.Ends s done fun _ _ => True :=
  (ends_self edit s).mono (fun answer t _ => onReturn answer t) fun _ _ _ => trivial

/-- Two things that are known of one run. -/
theorem Ends.and {edit : Edit σ β} {done' : β → σ → Prop} {failed' : Fault → σ → Prop}
    (first : edit.Ends s done failed) (second : edit.Ends s done' failed') :
    edit.Ends s (fun answer t => done answer t ∧ done' answer t)
      fun fault t => failed fault t ∧ failed' fault t := by
  cases ran : edit s with
  | ok answer t => exact (ends_of_ok ran).mpr ⟨first.returned ran, second.returned ran⟩
  | error fault t => exact (ends_of_error ran).mpr ⟨first.failure ran, second.failure ran⟩

/-- What is always known of a run, and what is known of it under a condition. -/
theorem Ends.and_when {edit : Edit σ β} {condition : Prop} {done' : β → σ → Prop}
    {failed' : Fault → σ → Prop} (always : edit.Ends s done failed)
    (surely : condition → edit.Ends s done' failed') :
    edit.Ends s (fun answer t => done answer t ∧ (condition → done' answer t))
      fun fault t => failed fault t ∧ (condition → failed' fault t) := by
  cases ran : edit s with
  | ok answer t =>
      exact (ends_of_ok ran).mpr ⟨always.returned ran, fun holds => (surely holds).returned ran⟩
  | error fault t =>
      exact (ends_of_error ran).mpr ⟨always.failure ran, fun holds => (surely holds).failure ran⟩

/-- Where failing is no matter, a computation is only asked what it returns. -/
theorem ends_lift_any {result : Except Fault β} (rest : ∀ value, result = .ok value → done value s) :
    Ends (liftM result : EStateM Fault σ β) s done fun _ _ => True := by
  cases result with
  | ok value => exact rest value rfl
  | error fault => trivial

@[simp] theorem ends_pure (answer : β) :
    Ends (pure answer : EStateM Fault σ β) s done failed ↔ done answer s := Iff.rfl

@[simp] theorem ends_throw (fault : Fault) :
    Ends (throw fault : EStateM Fault σ β) s done failed ↔ failed fault s := Iff.rfl

@[simp] theorem ends_bind (edit : EStateM Fault σ γ) (next : γ → EStateM Fault σ β) :
    Ends (edit >>= next) s done failed ↔
      Ends edit s (fun answer t => Ends (next answer) t done failed) failed := by
  simp only [Ends, bind, EStateM.bind]
  cases edit s <;> rfl

@[simp] theorem ends_map (edit : EStateM Fault σ γ) (f : γ → β) :
    Ends (f <$> edit) s done failed ↔ Ends edit s (fun answer t => done (f answer) t) failed := by
  simp only [Ends, Functor.map, EStateM.map]
  cases edit s <;> rfl

@[simp] theorem ends_get {done : σ → σ → Prop} :
    Ends (get : EStateM Fault σ σ) s done failed ↔ done s s := Iff.rfl

@[simp] theorem ends_set {done : PUnit → σ → Prop} (t : σ) :
    Ends (set t : EStateM Fault σ PUnit) s done failed ↔ done ⟨⟩ t := Iff.rfl

@[simp] theorem ends_modify {done : PUnit → σ → Prop} (f : σ → σ) :
    Ends (modify f : EStateM Fault σ PUnit) s done failed ↔ done ⟨⟩ (f s) := Iff.rfl

@[simp] theorem ends_modifyGet (f : σ → β × σ) :
    Ends (modifyGet f : EStateM Fault σ β) s done failed ↔ done (f s).1 (f s).2 := Iff.rfl

/-- A computation without state returns its value, or fails and leaves the state as it is. -/
@[simp] theorem ends_lift (result : Except Fault β) :
    Ends (liftM result : EStateM Fault σ β) s done failed ↔
      (∀ value, result = .ok value → done value s) ∧
        ∀ fault, result = .error fault → failed fault s := by
  cases result with
  | ok value =>
      have same : Ends (liftM (Except.ok value : Except Fault β) : EStateM Fault σ β) s done failed ↔
        done value s := Iff.rfl
      simp [same]
  | error fault =>
      have same : Ends (liftM (Except.error fault : Except Fault β) : EStateM Fault σ β) s done failed ↔
        failed fault s := Iff.rfl
      simp [same]

/-- A computation of which it is known what it returns. -/
theorem ends_lift_ok {result : Except Fault β} {value : β} (returns : result = .ok value)
    (rest : done value s) : Ends (liftM result : EStateM Fault σ β) s done failed := by
  obtain rfl := returns
  exact rest

/-- A computation that fails as is known. -/
theorem ends_lift_error {result : Except Fault β} {fault : Fault} (fails : result = .error fault)
    (rest : failed fault s) : Ends (liftM result : EStateM Fault σ β) s done failed := by
  obtain rfl := fails
  exact rest

/-- A computation of which it is known that it returns. -/
theorem ends_lift_of {result : Except Fault β} {known : β → Prop}
    (returns : ∃ value, result = .ok value ∧ known value) (rest : ∀ value, known value → done value s) :
    Ends (liftM result : EStateM Fault σ β) s done failed := by
  obtain ⟨value, rfl, holds⟩ := returns
  exact rest value holds

/-- An edit of a part, which is put back also where the edit fails. -/
@[simp] theorem ends_focus (get : σ → τ) (set : σ → τ → σ) (edit : Edit τ β) :
    Ends (focus get set edit) s done failed ↔
      edit.Ends (get s) (fun answer part => done answer (set s part))
        fun fault part => failed fault (set s part) := by
  simp only [Ends, focus]
  cases edit (get s) <;> rfl

end

/-- Whether the edit returns or fails, the state that it leaves satisfies the condition. -/
def Leaves (edit : Edit σ β) (s : σ) (condition : σ → Prop) : Prop :=
  edit.Ends s (fun _ => condition) fun _ => condition

section

variable {s : σ} {condition : σ → Prop}

/-- What an edit leaves may be said more weakly. -/
theorem Leaves.mono {edit : Edit σ β} {weaker : σ → Prop} (leaves : edit.Leaves s condition)
    (weakens : ∀ t, condition t → weaker t) : edit.Leaves s weaker :=
  Ends.mono leaves (fun _ => weakens) fun _ => weakens

/-- What an edit leaves is the state after it. -/
theorem leaves_state (edit : Edit σ β) (s : σ) : edit.Leaves s (· = state (edit s)) :=
  (ends_self edit s).mono (fun _ _ ran => congrArg state ran.symm) fun _ _ ran => congrArg state ran.symm

/-- A plain answer leaves what was there. -/
theorem leaves_pure (holds : condition s) (answer : β) :
    Leaves (pure answer : EStateM Fault σ β) s condition := holds

/-- A fault leaves what was there. -/
theorem leaves_throw (holds : condition s) (fault : Fault) :
    Leaves (throw fault : EStateM Fault σ β) s condition := holds

/-- A change leaves what it makes of the state. -/
theorem leaves_modify {f : σ → σ} (holds : condition (f s)) :
    Leaves (modify f : EStateM Fault σ PUnit) s condition := holds

/-- What the first step leaves has to be enough for the second one, and for the end where the first
step fails. -/
theorem Leaves.bind {edit : EStateM Fault σ γ} {next : γ → EStateM Fault σ β}
    (first : Leaves edit s condition)
    (rest : ∀ answer t, condition t → Leaves (next answer) t condition) :
    Leaves (edit >>= next) s condition :=
  (ends_bind edit next).mpr (Ends.mono first rest fun _ _ holds => holds)

/-- Reading the state leaves what the rest does. -/
theorem leaves_get {next : σ → EStateM Fault σ β} (rest : Leaves (next s) s condition) :
    Leaves (get >>= next) s condition := rest

/-- A computation without state leaves the state as it is, and what it returns is known further on. -/
theorem leaves_lift {result : Except Fault γ} {next : γ → EStateM Fault σ β} (holds : condition s)
    (rest : ∀ value, result = .ok value → Leaves (next value) s condition) :
    Leaves (liftM result >>= next) s condition :=
  (ends_bind _ next).mpr ((ends_lift result).mpr ⟨rest, fun _ _ => holds⟩)

/-- An edit of a part leaves the whole with what it leaves of the part. -/
theorem leaves_focus {get : σ → τ} {set : σ → τ → σ} {edit : Edit τ β} :
    Leaves (focus get set edit) s condition ↔ edit.Leaves (get s) fun part => condition (set s part) :=
  ends_focus get set edit

end

/-- Every run leaves a state that is related to the one before. -/
def Keeps (R : σ → σ → Prop) (edit : Edit σ β) : Prop :=
  ∀ s, edit.Ends s (fun _ t => R s t) fun _ t => R s t

namespace Keeps

variable {R : σ → σ → Prop} [IsPreorder σ R]

/-- A plain answer keeps any relation. -/
theorem pure (answer : β) : Keeps R (pure answer : EStateM Fault σ β) := fun s => refl_of R s

/-- A fault keeps any relation. -/
theorem throw (fault : Fault) : Keeps R (throw fault : EStateM Fault σ β) := fun s => refl_of R s

/-- Reading the state keeps any relation. -/
theorem get : Keeps R (get : EStateM Fault σ σ) := fun s => refl_of R s

/-- A computation that reads no state keeps any relation. -/
theorem lift (result : Except Fault β) : Keeps R (liftM result : EStateM Fault σ β) :=
  fun s => (ends_lift result).mpr ⟨fun _ _ => refl_of R s, fun _ _ => refl_of R s⟩

omit [IsPreorder σ R] in
/-- A change keeps a relation that each state is in to what the change makes of it. -/
theorem modify {f : σ → σ} (changed : ∀ s, R s (f s)) :
    Keeps R (modify f : EStateM Fault σ PUnit) := changed

/-- Two steps keep a relation that each of them keeps. -/
theorem bind {edit : EStateM Fault σ γ} {next : γ → EStateM Fault σ β} (first : Keeps R edit)
    (rest : ∀ answer, Keeps R (next answer)) : Keeps R (edit >>= next) := by
  intro s
  refine (ends_bind edit next).mpr ((first s).mono (fun answer t step => ?_) fun _ _ step => step)
  exact (rest answer t).mono (fun _ _ last => trans_of R step last)
    fun _ _ last => trans_of R step last

omit [IsPreorder σ R] in
/-- A choice keeps a relation that both sides keep. -/
theorem ite {condition : Prop} [Decidable condition] {yes no : EStateM Fault σ β}
    (left : Keeps R yes) (right : Keeps R no) : Keeps R (if condition then yes else no) := by
  split
  · exact left
  · exact right

end Keeps

end Edit

/-- Two computations in a row return where the first returns and the second does so after it. -/
theorem bind_eq_ok {ε : Type} {x : Except ε γ} {next : γ → Except ε β} {value : β} :
    (x >>= next) = .ok value ↔ ∃ middle, x = .ok middle ∧ next middle = .ok value := by
  cases x with
  | ok middle =>
      change next middle = .ok value ↔ _
      simp
  | error fault =>
      change Except.error fault = .ok value ↔ _
      simp

/-- Computations that return do so one after the other too. -/
theorem exists_ok_bind {x : Except Fault γ} {next : γ → Except Fault β}
    (first : ∃ middle, x = .ok middle) (rest : ∀ middle, ∃ value, next middle = .ok value) :
    ∃ value, x >>= next = .ok value := by
  obtain ⟨middle, rfl⟩ := first
  exact rest middle

end LayoutDesigner
