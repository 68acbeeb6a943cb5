import LayoutDesigner.Shell.Files
import LayoutDesigner.Shell.Help
import LayoutDesigner.Shell.Pointer

/-!
# Menus and buttons

What the entries of the menus and the buttons of the window do. A closed action does nothing.
-/

namespace LayoutDesigner.Shell

/-- Start a new project; where there is a design already, only if the user agrees. -/
def startProject : Edit Shell Unit := do
  let shell ← get
  if shell.session.store.nodes.isEmpty then order .newProject
  else do
    happen (.question "New Project" "Discard the current layout and start a new project?")
    if shell.replies.agrees then order .newProject

/-- Show the help dialog at a page. -/
def showHelp (page : Int) : Edit Shell Unit := happen (.dialog (Help.dialog (.int page)))

/-- The window, where there is one. -/
def needWindow : Edit Shell Window := do
  match (← get).window with
  | some w => return w
  | none => throw .wrongMember

/-- Show the guide of the safe area where it is hidden, and hide it where it is shown. -/
def toggleSafeArea : Edit Shell Unit := do
  let w ← needWindow
  modify ({ · with window := some { w with safeArea := !w.safeArea } })
  order (.setShowSafeArea (.bool !w.safeArea))

/-- Do what an entry of a menu stands for. -/
def perform : MenuAction → Edit Shell Unit
  | .newProject => startProject
  | .save => save
  | .load => load
  | .exportScript => order .exportScript
  | .exit => modify fun shell => { shell with window := shell.window.map ({ · with closed := true }) }
  | .delete => order .deleteSelected
  | .duplicate => order .duplicateSelected
  | .moveUp => order (.moveSelected true)
  | .moveDown => order (.moveSelected false)
  | .zoomIn => zoomIn
  | .zoomOut => zoomOut
  | .zoomReset => zoomReset
  | .safeArea => toggleSafeArea
  | .explorer => pure ()
  | .properties => pure ()
  | .script => pure ()
  | .help => showHelp 0
  | .shortcuts => showHelp Help.shortcutsPage
  | .about => happen (.about Help.aboutTitle Help.about)

/-- Trigger an entry of a menu. -/
def trigger (menu label : Text) : Edit Shell Unit := do
  let w ← needWindow
  match menuAction? menu label with
  | none => throw .wrongMember
  | some action => if w.isOpen action then perform action

/-- Trigger the button of a kind of element. -/
def triggerKind (label : Text) : Edit Shell Unit := do
  let _ ← needWindow
  match Kind.ofName? label with
  | none => throw .wrongMember
  | some k => order (.createNode (.str k.name))

end LayoutDesigner.Shell
