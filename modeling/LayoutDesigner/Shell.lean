import LayoutDesigner.Pick
import LayoutDesigner.Shell.Disk
import LayoutDesigner.Shell.Event
import LayoutDesigner.Shell.Explorer
import LayoutDesigner.Shell.PropertyPanel
import LayoutDesigner.Shell.Scene
import LayoutDesigner.Shell.Window

/-!
# The shell

The shell shows a session on the screen in parts, any of which may be missing: the scene with the
nodes, the view that scales it, the explorer, the property panel, the script panel and the window.
Every edit of the session is followed by what the session told: notices go to the window, and after
each change every part reads the session again, in this order.
-/

namespace LayoutDesigner

open LayoutDesigner.Shell

/-- A session on the screen. -/
structure Shell where
  session : Session Number
  settings : Settings
  /-- The directory of saved designs where the settings name none. -/
  dataDirectory : FilePath
  disk : Disk := {}
  replies : Replies := {}
  scene : Option (Scene Number) := none
  /-- The view, where there is one: the zoom that it was last scaled to. -/
  view : Option (Option Number) := none
  explorer : Option (Explorer Number) := none
  panel : Option PropertyPanel := none
  scriptPanel : Option ScriptPanel := none
  window : Option Window := none
  /-- What happened besides, oldest first. -/
  events : List Event := []

namespace Shell

/-- Something happens on the screen. -/
def happen (e : Event) : Edit Shell Unit := modify fun shell => { shell with events := shell.events ++ [e] }

/-- Forget what happened. -/
def clearEvents (shell : Shell) : Shell := { shell with events := [] }

/-- Scale the view to the zoom of the session, unless it is scaled so already. -/
def refreshView : Edit Shell Unit := do
  let shell ← get
  let zoom := shell.session.stage.zoom
  match shell.view with
  | none => pure ()
  | some applied =>
    if applied.any fun old => Arith.same zoom old then pure ()
    else do
      happen .viewReset
      happen (.viewScaled zoom)
      modify ({ · with view := some (some zoom) })

/-- The outline of the view. -/
def viewOutline : Outline :=
  Outline.plain "DesignView"
    [("setRenderHint", .arr [.str "Antialiasing", .bool true]), ("setDragMode", .str "NoDrag"),
      ("setTransformationAnchor", .str "AnchorUnderMouse"),
      ("setBackgroundBrush", .str "darkGray")] []

/-- Let the explorer show the session. -/
def refreshExplorer : Edit Shell Unit := do
  let shell ← get
  match shell.explorer with
  | none => pure ()
  | some explorer => do
    let explorer ← explorer.refresh shell.session
    modify ({ · with explorer := some explorer })

/-- Let the property panel show the session. -/
def refreshPanel : Edit Shell Unit := do
  let shell ← get
  match shell.panel with
  | none => pure ()
  | some panel => do
    let panel ← panel.refresh shell.session
    modify ({ · with panel := some panel })

/-- Let the script panel show the session. -/
def refreshScriptPanel : Edit Shell Unit := modify fun shell =>
  { shell with scriptPanel := shell.scriptPanel.map fun _ => ScriptPanel.ofSession shell.session }

/-- Let the window show the session. -/
def refreshWindow : Edit Shell Unit := do
  let shell ← get
  match shell.window with
  | none => pure ()
  | some window => do
    let window ← window.refresh shell.session
    modify ({ · with window := some window })

/-- Let the scene show the session. -/
def refreshScene : Edit Shell Unit := do
  let shell ← get
  match shell.scene with
  | none => pure ()
  | some scene => do
    let result := Scene.refresh shell.session scene
    modify ({ · with scene := some (Edit.state result) })
    let _ ← Edit.answer result

/-- Let every part show the session. -/
def refresh : Edit Shell Unit := do
  refreshScene
  refreshView
  refreshExplorer
  refreshPanel
  refreshScriptPanel
  refreshWindow

/-- Show a notice in the window. -/
def showNotice (message detail : Text) : Edit Shell Unit := modify fun shell =>
  { shell with window := shell.window.map (·.showNotice message detail) }

/-- Follow what the session told. -/
def follow : List Signal → Edit Shell Unit
  | [] => pure ()
  | .notice message detail :: rest => do
    showNotice message detail
    follow rest
  | .changed :: rest => do
    refresh
    follow rest

/-- Edit the session together with something else and follow what it told. Answers how the edit ended
and what became of the other thing. -/
def onSessionWith {τ β : Type} (other : τ) (edit : Edit (Session Number × τ) β) :
    Edit Shell (Except Fault β × τ) := do
  let result := edit ((← get).session.clearSignals, other)
  let (session, other) := Edit.state result
  modify ({ · with session })
  follow session.signals
  return (Edit.answer result, other)

/-- Edit the session and follow what it told, also where the edit fails. -/
def onSession {β : Type} (edit : Edit (Session Number) β) : Edit Shell β := do
  let (answer, _) ←
    onSessionWith () (Edit.focus Prod.fst (fun pair session => (session, pair.2)) edit)
  match answer with
  | .ok answer => return answer
  | .error fault => throw fault

/-- Run a command of the session. -/
def command (c : Command Number) : Edit Shell (Value Number) := onSession (Session.run c)

/-- Run a command of the session without looking at the answer. -/
def order (c : Command Number) : Edit Shell Unit := do
  let _ ← command c

/-- Run a command, if there is one. -/
def orderIf : Option (Command Number) → Edit Shell Unit
  | none => pure ()
  | some c => order c

/-- The directory of saved designs. -/
def workspace (shell : Shell) : Except Fault FilePath := do
  return (← shell.settings.workspace?).getD shell.dataDirectory

/-- The file of saved designs. -/
def savePath (shell : Shell) : Except Fault FilePath := do
  shell.settings.snapshotPath (← shell.workspace)

/-- The parts that a shell can have. -/
inductive Part where
  | scene | view | explorer | panel | script | window
  deriving DecidableEq, Repr

/-- Add a part. The scene shows the session with its next change, all others at once. The window
needs a file to save to. -/
def addPart : Part → Edit Shell Unit
  | .scene => do
    let _ ← sceneOutline (← get).session.store
    modify ({ · with scene := some {} })
  | .view => do
    modify ({ · with view := some none })
    refreshView
  | .explorer => do
    modify ({ · with explorer := some {} })
    refreshExplorer
  | .panel => do
    modify ({ · with panel := some {} })
    refreshPanel
  | .script => do
    modify ({ · with scriptPanel := some {} })
    refreshScriptPanel
  | .window => do
    let _ ← savePath (← get)
    modify ({ · with window := some {} })
    let (message, detail) := (← get).session.status
    showNotice message detail
    refreshWindow

/-- A shell of a session with the listed parts. -/
def addParts (parts : List Part) : Edit Shell Unit := parts.forM addPart

/-- The parts of a shell with a window. -/
def windowParts : List Part := [.scene, .view, .explorer, .panel, .script, .window]

end Shell

end LayoutDesigner
