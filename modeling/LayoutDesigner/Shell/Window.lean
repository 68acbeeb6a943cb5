import LayoutDesigner.Kind
import LayoutDesigner.Session
import LayoutDesigner.Shell.ScriptPanel

/-!
# The main window

The window has menus, a bar with a button for every kind of element, the panels, and a status bar
with the last notice and the zoom. Some actions are open only while a node is selected.
-/

namespace LayoutDesigner.Shell

/-- What the entries of the menus do. -/
inductive MenuAction where
  | newProject | save | load | exportScript | exit
  | delete | duplicate | moveUp | moveDown
  | zoomIn | zoomOut | zoomReset | safeArea | explorer | properties | script
  | help | shortcuts | about
  deriving DecidableEq, Repr

namespace MenuAction

/-- Whether an action is open only while a node is selected. -/
def needsSelection : MenuAction → Bool
  | .delete => true
  | .duplicate => true
  | .moveUp => true
  | .moveDown => true
  | _ => false

/-- The label of an action. -/
def label : MenuAction → Text
  | .newProject => "New Project"
  | .save => "Save"
  | .load => "Load"
  | .exportScript => "Export Lua"
  | .exit => "E&xit"
  | .delete => "Delete"
  | .duplicate => "Duplicate"
  | .moveUp => "Move Up"
  | .moveDown => "Move Down"
  | .zoomIn => "Zoom In"
  | .zoomOut => "Zoom Out"
  | .zoomReset => "Zoom 100%"
  | .safeArea => "Show Safe Area"
  | .explorer => "Explorer"
  | .properties => "Properties"
  | .script => ScriptPanel.title
  | .help => "Help Contents"
  | .shortcuts => "Keyboard Shortcuts"
  | .about => "About GuiForge"

/-- The keys that trigger an action: a standard shortcut, a key, or a combination. -/
def shortcut? : MenuAction → Option Text
  | .newProject => some "New"
  | .save => some "Save"
  | .load => some "Open"
  | .exportScript => some "Ctrl+E"
  | .delete => some "Key_Delete"
  | .duplicate => some "Ctrl+D"
  | .moveUp => some "Ctrl+Up"
  | .moveDown => some "Ctrl+Down"
  | .zoomIn => some "ZoomIn"
  | .zoomOut => some "ZoomOut"
  | .zoomReset => some "Ctrl+0"
  | .help => some "Key_F1"
  | _ => none

end MenuAction

/-- The menus: the title of each and its entries, with nothing where a separator stands. -/
def menus : List (Text × List (Option MenuAction)) :=
  [("&File", [some .newProject, none, some .save, some .load, none, some .exportScript, none,
      some .exit]),
    ("&Edit", [some .delete, some .duplicate, none, some .moveUp, some .moveDown]),
    ("&View", [some .zoomIn, some .zoomOut, some .zoomReset, none, some .safeArea, none,
      some .explorer, some .properties, some .script]),
    ("&Help", [some .help, some .shortcuts, none, some .about])]

/-- The entries of the menu that pops up over a node. -/
def nodeMenu : List (Option MenuAction) :=
  [some .delete, some .duplicate, none, some .moveUp, some .moveDown]

/-- The action of a label among the entries of a menu. -/
def actionOf? (entries : List (Option MenuAction)) (label : Text) : Option MenuAction :=
  entries.findSome? fun entry => entry.filter fun action => action.label = label

/-- The action of a label in the menu of a title. -/
def menuAction? (title label : Text) : Option MenuAction :=
  (menus.find? fun menu => menu.1 = title).bind fun menu => actionOf? menu.2 label

/-- The state of the main window. -/
structure Window where
  message : Text := []
  detail : Text := []
  zoom : Text := []
  hasSelection : Bool := false
  safeArea : Bool := false
  title : Text := []
  closed : Bool := false

namespace Window

/-- The nearest integer, a half going to the even neighbour. -/
def roundHalfEven (x : Number) : Except Fault Int := do
  let below ← Arith.truncate (Number.int x.floor)
  let rest ← Arith.sub x (.int below)
  let half : Number := Arith.half
  if Arith.lt rest half then return below
  else if Arith.lt half rest then return below + 1
  else return if below % 2 = 0 then below else below + 1

/-- The zoom in parts of a hundred. -/
def zoomText (zoom : Number) : Except Fault Text := do
  let scaled ← Arith.mul zoom (.int 100)
  let _ ← Arith.truncate scaled
  return Text.ofInt (← roundHalfEven scaled) ++ ("%" : Text)

/-- Show a notice. -/
def showNotice (w : Window) (message detail : Text) : Window := { w with message, detail }

/-- Show the state of the session. -/
def refresh (w : Window) (s : Session Number) : Except Fault Window := do
  return { w with
    hasSelection := s.selected.isSome
    zoom := ← zoomText s.stage.zoom
    safeArea := s.showSafeArea
    title := ("GuiForge - " : Text) ++ s.project.guiName.shown }

/-- Whether an action is open. -/
def isOpen (w : Window) (a : MenuAction) : Bool := !a.needsSelection || w.hasSelection

/-- What the window shows besides its panels, as a document. -/
def toDocument (w : Window) : Outline :=
  .obj [("title", .str w.title), ("message", .str w.message), ("detail", .str w.detail),
    ("zoom", .str w.zoom), ("safe_area", .bool w.safeArea),
    ("enabled", .arr (nodeMenu.filterMap fun entry => entry.map fun a => .bool (w.isOpen a)))]

/-- The outline of an entry of a menu. -/
def entryOutline (w : Window) : Option MenuAction → Outline
  | none => .str "-"
  | some a =>
    let keys : List (Text × Outline) := a.shortcut?.toList.map fun keys => ("setShortcut", .str keys)
    let checkable : List (Text × Outline) :=
      if a = .safeArea then [("setCheckable", .bool true)] else []
    Outline.enabledIf (w.isOpen a)
      (Outline.showing "QAction" (.str a.label) (keys ++ checkable))

/-- The outline of the bar with the kinds of element. -/
def toolbarOutline : Outline :=
  let action (k : Kind) : Outline :=
    Outline.showing "QAction" (.str k.name)
      [("setToolTip", .str (("Add a " : Text) ++ k.name ++ (" at the canvas centre" : Text)))]
  .arr [.str "TopToolBarArea",
    Outline.showing "QToolBar" (.str "Toolbox") [("setObjectName", .str "toolbox")]
      (Kind.all.map action)]

/-- The outline of the window. -/
def outline (w : Window) : Outline :=
  let menu (m : Text × List (Option MenuAction)) : Outline :=
    Outline.showing "QMenu" (.str m.1) [] (m.2.map w.entryOutline)
  let dock (area title : Text) : Outline := .arr [.str area, .str title]
  let props : List (Text × Outline) :=
    [("central", .str "DesignView"), ("setWindowTitle", .str w.title)]
  let closing : List (Text × Outline) := if w.closed then [("close", .bool false)] else []
  let parts : List (Text × Outline) :=
    [("menus", Outline.plain "QMenu" [] (menus.map menu)), ("toolbars", .arr [toolbarOutline]),
      ("docks", .arr [dock "LeftDockWidgetArea" MenuAction.explorer.label,
        dock "RightDockWidgetArea" MenuAction.properties.label,
        dock "BottomDockWidgetArea" MenuAction.script.label]),
      ("status", Outline.showing "QStatusBar" (.str w.message) []
        [Outline.label w.detail, Outline.label w.zoom])]
  .obj (parts ++ Outline.members "MainWindow" (props ++ closing) [])

end Window

end LayoutDesigner.Shell
