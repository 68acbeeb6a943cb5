import LayoutDesigner.Shell.Outline
import LayoutDesigner.Space

/-!
# Events of the shell

What happens on the screen besides the widgets: questions and messages, dialogs, menus that pop up,
the clipboard, and changes of the view. What the user answers to dialogs is settled before.
-/

namespace LayoutDesigner.Shell

/-- Something that happens on the screen. -/
inductive Event where
  | question (title text : Text)
  | failure (title text : Text)
  | about (title text : Text)
  | colorDialog (color title : Text)
  | saveDialog (title path filters : Text)
  /-- A menu pops up; a separator has no label. -/
  | menu (labels : List (Option Text)) (place : Point Number)
  | dialog (outline : Outline)
  | clipboard (text : Text)
  | statusMessage (text : Text)
  | viewReset
  | viewScaled (factor : Number)
  /-- The input was left to what is usual. -/
  | leftToDefault (input : Text)

namespace Event

/-- An event as a document: what it is, and what it tells. -/
def toDocument : Event → Outline
  | .question title text => .arr [.str "question", .str title, .str text]
  | .failure title text => .arr [.str "critical", .str title, .str text]
  | .about title text => .arr [.str "about", .str title, .str text]
  | .colorDialog color title => .arr [.str "color", .str color, .str title]
  | .saveDialog title path filters =>
    .arr [.str "save_file", .str title, .str path, .str filters]
  | .menu labels place =>
    let entries : List Outline := labels.map fun label => .str (label.getD "-")
    .arr [.str "menu", .arr entries, .arr [.num place.1, .num place.2]]
  | .dialog outline => .arr [.str "dialog", outline]
  | .clipboard text => .arr [.str "clipboard", .str text]
  | .statusMessage text => .arr [.str "status_message", .str text]
  | .viewReset => .arr [.str "resetTransform"]
  | .viewScaled factor => .arr [.str "scale", .num factor, .num factor]
  | .leftToDefault input => .arr [.str "default", .str input]

end Event

/-- What the user answers to dialogs. -/
structure Replies where
  /-- Whether questions are answered with yes. -/
  agrees : Bool := false
  /-- The colour that is chosen; none where the dialog is closed. -/
  color : Option Text := none
  /-- The file that is chosen; none where the dialog is closed. -/
  path : Option Text := none

end LayoutDesigner.Shell
