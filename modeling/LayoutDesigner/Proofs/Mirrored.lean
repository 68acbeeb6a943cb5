import LayoutDesigner.Shell
import LayoutDesigner.Snapshot.SaveFile
import LayoutDesigner.Proofs.Scene
import LayoutDesigner.Proofs.Standing
import LayoutDesigner.Proofs.Structure

/-!
# The scene beside a session

Every command that returns ends by telling that something changed, and the shell follows what was told
by refreshing its parts, of which only the scene changes the scene and none the session. So after each
command the scene has been refreshed on the session as it is, and mirrors it.
-/

namespace LayoutDesigner

open Edit (Keeps)

variable {β τ : Type}

namespace Session

variable {α : Type} {s : Session α}

/-- Where the edit returns, it has told that something changed. -/
def Tells (edit : Edit (Session α) β) (s : Session α) : Prop :=
  edit.Ends s (fun _ t => Signal.changed ∈ t.signals) fun _ _ => True

/-- An edit that notifies tells of what it changed. -/
theorem tells_notifying (edit : Edit (Session α) β) : Tells (notifying edit) s := by
  unfold Tells notifying notify
  simp only [Edit.ends_bind, Edit.ends_modify, Edit.ends_pure]
  exact Edit.ends_any fun _ _ => List.mem_append_right _ (List.mem_singleton_self _)

variable [Arith α]

/-- Every command tells. -/
theorem tells_run (command : Command α) : Tells (run command) s := by
  have answered : ∀ {β : Type} {edit : Edit (Session α) β} {answer : β → Value α}, Tells edit s →
      Tells (do return answer (← edit)) s := fun tells => (Edit.ends_bind _ _).mpr tells
  cases command <;> exact answered (tells_notifying _)

/-- Loading what was found in a file tells, be it something, nothing or what cannot be read. -/
theorem tells_loadFrom (found : Except Fault (Option (Value α))) : Tells (loadFrom found) s := by
  cases found with
  | ok found =>
      cases found with
      | none => exact tells_notifying _
      | some data => cases data <;> exact tells_notifying _
  | error fault =>
      rw [loadFrom]
      split
      · exact tells_notifying _
      · trivial

end Session

namespace Contract.Holds

variable {α : Type} [Arith α] {c : Contract α} {s : Session α}

/-- A load keeps the promises of a session. -/
theorem loadFrom [Arith.Lawful α] (kept : c.KeptAtRest) (holds : c.Holds s) (found : Except Fault (Option (Value α))) :
    c.Runs (Session.loadFrom found) s :=
  kept.regime.loadFrom holds (fun data => kept.takesIn holds data) found

/-- Saving that returns ends by telling that the design was saved. -/
theorem save {c : Contract Number} {s : Session Number} {file : SaveFile} (holds : c.Holds s) :
    Session.save.Ends (s, file) (fun _ pair => c.Holds pair.1 ∧ Signal.changed ∈ pair.1.signals) fun _ _ => True := by
  unfold Session.save
  simp only [Edit.ends_bind, Edit.ends_get, Edit.ends_focus]
  refine Edit.ends_lift_any fun _ _ => Edit.ends_any fun _ written => ?_
  have runs : c.Runs Session.confirmSaved s := show c.Holds { s with status := _, signals := _ } from { holds with }
  exact (runs.and (Session.tells_notifying _)).mono (fun _ _ both => both) fun _ _ _ => trivial

end Contract.Holds

namespace Shell

open Session (Tells)

variable {shell next : Shell}

/-- The same session is shown in the same scene. -/
def SameDesign (shell next : Shell) : Prop := next.session = shell.session ∧ next.scene = shell.scene

instance : IsPreorder Shell SameDesign where
  refl _ := ⟨rfl, rfl⟩
  trans _ _ _ first second := ⟨second.1.trans first.1, second.2.trans first.2⟩

/-- A notice in the shell leaves the design as it is. -/
theorem keeps_showNotice (message detail : Text) : Keeps SameDesign (showNotice message detail) :=
  .modify fun _ => ⟨rfl, rfl⟩

/-- An event leaves the design as it is. -/
theorem keeps_happen (e : Event) : Keeps SameDesign (happen e) := .modify fun _ => ⟨rfl, rfl⟩

/-- Refreshing the view leaves the design as it is. -/
theorem keeps_refreshView : Keeps SameDesign refreshView := by
  refine .bind .get fun shell => ?_
  dsimp only
  split
  · exact .pure _
  · split
    · exact .pure _
    · exact .bind (keeps_happen _) fun _ => .bind (keeps_happen _) fun _ => .modify fun _ => ⟨rfl, rfl⟩

/-- A part that is refreshed and put back, where there is one, leaves the rest of the shell. -/
theorem keeps_parts : Keeps SameDesign refreshExplorer ∧ Keeps SameDesign refreshPanel ∧ Keeps SameDesign refreshWindow := by
  refine ⟨.bind .get fun shell => ?_, .bind .get fun shell => ?_, .bind .get fun shell => ?_⟩
  all_goals
    split
    · exact .pure _
    · exact .bind (.lift _) fun _ => .modify fun _ => ⟨rfl, rfl⟩

/-- All parts but the scene leave the scene and the session alone. -/
theorem keeps_otherParts : Keeps SameDesign (do
    refreshView
    refreshExplorer
    refreshPanel
    refreshScriptPanel
    refreshWindow) :=
  .bind keeps_refreshView fun _ => .bind keeps_parts.1 fun _ => .bind keeps_parts.2.1 fun _ =>
    .bind (.modify fun _ => ⟨rfl, rfl⟩) fun _ => keeps_parts.2.2

/-- The scene takes over what its refresh leaves. -/
theorem ends_refreshScene {scene : Scene Number} (shown : shell.scene = some scene) :
    refreshScene.Ends shell (fun _ next => next.session = shell.session ∧
      ∃ t, Scene.refresh shell.session scene = .ok () t ∧ next.scene = some t) fun _ _ => True := by
  unfold refreshScene
  simp only [Edit.ends_bind, Edit.ends_get, shown, Edit.ends_modify]
  refine Edit.ends_lift_any fun _ answered => ?_
  refine ⟨rfl, _, Edit.eq_ok_of_answer ?_, rfl⟩
  rw [answered]
  rfl

section

variable {least offset zoomRange : Value Number}

/-- The scene mirrors a session whose store is sound. -/
structure InStep (least offset zoomRange : Value Number) (shell : Shell) : Prop where
  holds : (Contract.sound False least offset zoomRange).Holds shell.session
  mirrors : ∃ scene, shell.scene = some scene ∧ scene.Mirrors shell.session

/-- The shell's own refresh makes the scene a mirror of the session. -/
theorem ends_refresh {scene : Scene Number} (holds : (Contract.sound False least offset zoomRange).Holds shell.session)
    (shown : shell.scene = some scene) (single : scene.ids.Nodup) :
    refresh.Ends shell (fun _ next => next.session = shell.session ∧
      ∃ t, next.scene = some t ∧ t.Mirrors shell.session) fun _ _ => True := by
  have orderly := holds.good.orderly
  refine (Edit.ends_bind refreshScene _).mpr ((ends_refreshScene shown).mono ?_ fun _ _ _ => trivial)
  rintro _ next ⟨same, t, ran, shown'⟩
  have mirrors := (Scene.mirrors_refresh orderly.plain orderly.forest.distinct orderly.forest.unreserved single).returned ran
  refine (keeps_otherParts next).mono (fun _ last kept => ?_) fun _ _ _ => trivial
  exact ⟨kept.1.trans same, t, kept.2.trans shown', mirrors⟩

/-- Following signals keeps the scene a mirror, and makes it one where a change was told. -/
theorem ends_follow {scene : Scene Number} (holds : (Contract.sound False least offset zoomRange).Holds shell.session)
    (shown : shell.scene = some scene) (single : scene.ids.Nodup) (signals : List Signal) :
    (follow signals).Ends shell (fun _ next => next.session = shell.session ∧ ∃ t, next.scene = some t ∧
      (scene.Mirrors shell.session ∨ Signal.changed ∈ signals → t.Mirrors shell.session)) fun _ _ => True := by
  induction signals generalizing shell scene with
  | nil => exact ⟨rfl, scene, shown, fun either => either.resolve_right List.not_mem_nil⟩
  | cons signal rest ih =>
      cases signal with
      | notice message detail =>
          refine (Edit.ends_bind _ _).mpr ((keeps_showNotice message detail shell).mono ?_ fun _ _ _ => trivial)
          rintro _ next ⟨same, sameScene⟩
          refine (ih (same ▸ holds) (sameScene.trans shown) single).mono ?_ fun _ _ _ => trivial
          rintro _ last ⟨same', t, shown', mirrors⟩
          refine ⟨same'.trans same, t, shown', fun either => same ▸ mirrors (same ▸ either.imp_right fun told => ?_)⟩
          exact (List.mem_cons.mp told).resolve_left Signal.noConfusion
      | changed =>
          refine (Edit.ends_bind _ _).mpr ((ends_refresh holds shown single).mono ?_ fun _ _ _ => trivial)
          rintro _ next ⟨same, t, shown', mirrors⟩
          refine (ih (same ▸ holds) shown' mirrors.distinct).mono ?_ fun _ _ _ => trivial
          rintro _ last ⟨same', t', shown'', mirrors'⟩
          exact ⟨same'.trans same, t', shown'', fun _ => same ▸ mirrors' (.inl (same ▸ mirrors))⟩

/-- After an edit that returns, keeps the session sound and tells, the scene is a mirror again. -/
theorem InStep.onSessionWith {edit : Edit (Session Number × τ) β} {other : τ} (inStep : InStep least offset zoomRange shell)
    (runs : edit.Ends (shell.session.clearSignals, other) (fun _ pair =>
      (Contract.sound False least offset zoomRange).Holds pair.1 ∧ Signal.changed ∈ pair.1.signals) fun _ _ => True) :
    (Shell.onSessionWith other edit).Ends shell
      (fun result next => ∀ answer, result.1 = .ok answer → InStep least offset zoomRange next) fun _ _ => True := by
  obtain ⟨scene, shown, mirrors⟩ := inStep.mirrors
  unfold Shell.onSessionWith
  simp only [Edit.ends_bind, Edit.ends_get, Edit.ends_modify, Edit.ends_pure]
  cases ran : edit (shell.session.clearSignals, other) with
  | ok value pair =>
      obtain ⟨holds, told⟩ := runs.returned ran
      have shown' : ({ shell with session := pair.1 } : Shell).scene = some scene := shown
      refine (ends_follow holds shown' mirrors.distinct _).mono ?_ fun _ _ _ => trivial
      rintro _ next ⟨same, t, shown'', mirrors'⟩ _ _
      exact ⟨same ▸ holds, t, shown'', same ▸ mirrors' (.inr told)⟩
  | error fault pair => exact Edit.ends_any fun _ _ _ failed => by cases failed

/-- An edit of the session alone. -/
theorem InStep.onSession {edit : Edit (Session Number) β} (inStep : InStep least offset zoomRange shell)
    (runs : (Contract.sound False least offset zoomRange).Runs edit shell.session.clearSignals)
    (tells : Tells edit shell.session.clearSignals) :
    (Shell.onSession edit).Ends shell (fun _ next => InStep least offset zoomRange next) fun _ _ => True := by
  have both := (Edit.Ends.and runs tells).mono (fun _ _ both => both) fun _ _ _ => trivial
  refine (Edit.ends_bind _ _).mpr ((inStep.onSessionWith ((Edit.ends_focus _ _ _).mpr both)).mono ?_
    fun _ _ _ => trivial)
  rintro ⟨answer, _⟩ next after
  cases answer with
  | ok answer => exact after answer rfl
  | error fault => trivial

end

/-- The shells that commands lead to which return, loading and saving among them. -/
inductive Reaches (first : Shell) : Shell → Prop where
  | start : Reaches first first
  | ran {shell next : Shell} {c : Command Number} {answer : Value Number} (before : Reaches first shell)
      (returned : command c shell = .ok answer next) : Reaches first next
  | loaded {shell next : Shell} {file : SaveFile} {answer : Bool} (before : Reaches first shell)
      (returned : onSession (Session.load file) shell = .ok answer next) : Reaches first next
  | saved {shell next : Shell} {file written : SaveFile} (before : Reaches first shell)
      (returned : onSessionWith file Session.save shell = .ok (.ok (), written) next) : Reaches first next

/-- Along such commands the scene mirrors the session. -/
theorem Reaches.inStep {least offset zoomRange : Value Number} {first : Shell} (reached : first.Reaches shell)
    (start : InStep least offset zoomRange first) : InStep least offset zoomRange shell := by
  have kept : (Contract.sound False least offset zoomRange).Kept := Contract.kept_sound False.elim
  induction reached with
  | start => exact start
  | ran _ returned inStep =>
      have holds : (Contract.sound False least offset zoomRange).Holds (Session.clearSignals _) := { inStep.holds with }
      exact (inStep.onSession (holds.run kept) (Session.tells_run _)).returned returned
  | loaded _ returned inStep =>
      have holds : (Contract.sound False least offset zoomRange).Holds (Session.clearSignals _) := { inStep.holds with }
      exact (inStep.onSession (holds.loadFrom kept.toKeptAtRest _) (Session.tells_loadFrom _)).returned returned
  | saved _ returned inStep =>
      have holds : (Contract.sound False least offset zoomRange).Holds (Session.clearSignals _) := { inStep.holds with }
      exact (inStep.onSessionWith holds.save).returned returned () rfl

/-- **The scene never goes stale.** Take a scene that was added to a shell of a new session whose supply of ids does
not give the root's, whatever other parts the shell has, and any commands that return, loading and saving
among them. After each of them the scene has one item for each node in the order of drawing, and its items
are those of a new scene that is refreshed once on the same session: each shows a copy of the same node at the
same place, of the same size, at the same height of the stack and selected or not. -/
theorem mirrors_of_reaches (canvas : Value Number × Value Number) (leastSide duplicateOffset zoomRange : Value Number)
    (zoom : Number) (defaults : Project Number) (idSupply : Nat → Text) (depth : Nat)
    (unreserved : ∀ taken, idSupply taken ≠ root) (first : Shell)
    (isNew : first.session =
      Session.new canvas leastSide duplicateOffset zoom zoomRange defaults idSupply depth)
    (attached : first.scene = some {}) (shell : Shell) (reached : first.Reaches shell) :
    ∃ scene, shell.scene = some scene ∧ scene.Mirrors shell.session := by
  have inStep : InStep leastSide duplicateOffset zoomRange first := ?_
  · exact (reached.inStep inStep).mirrors
  refine ⟨?_, {}, attached, ?_⟩
  · exact isNew ▸ Session.holds_new unreserved False.elim
  · rw [isNew]
    exact ⟨.refl _, List.nodup_nil, {}, rfl, .refl _⟩

/-- A command that returns leads from a shell to another one. -/
theorem Reaches.after {first : Shell} (reached : first.Reaches shell) {c : Command Number}
    (returns : (Edit.answer (command c shell)).toOption.isSome) : first.Reaches (Edit.state (command c shell)) := by
  obtain ⟨answer, answered⟩ := Option.isSome_iff_exists.mp returns
  exact reached.ran (Edit.eq_ok_of_answer answered)

/-- A new session in a scene and in nothing else. -/
def watched : Shell where
  session := .opened
  settings := .defaults
  dataDirectory := ⟨[], []⟩
  scene := some {}

/-- A new project has one label. What is loaded then has a frame under the id of the label, and one in it. -/
theorem mirrors_of_reaches_watched :
    let made := Edit.state (command .newProject watched)
    let shell := Edit.state (command (.loadSnapshot (.obj [("nodes", .arr (Snapshot.framed "n0"))])) made)
    made.session.store.paintOrder = [("n0" : Text)] ∧
      ∃ scene, shell.scene = some scene ∧ scene.Mirrors shell.session ∧ scene.ids.Perm [("n0" : Text), "label"] := by
  intro made shell
  have reached : watched.Reaches shell := (Reaches.start.after (by decide +kernel)).after (by decide +kernel)
  obtain ⟨scene, shown, mirrors⟩ := mirrors_of_reaches _ _ _ _ _ _ _ _ (fun taken => (Text.numbered_fresh taken).1)
    watched rfl rfl shell reached
  exact ⟨by decide +kernel, scene, shown, mirrors, mirrors.ids.trans (.of_eq (by decide +kernel))⟩

end Shell

end LayoutDesigner
