import LayoutDesigner.Number
import LayoutDesigner.Value

/-!
# Outlines of widgets

The outline of a widget tells what is on the screen: the class of each widget, what it was told,
what it shows, and the widgets inside it. Parts that are empty are left out.
-/

namespace LayoutDesigner.Shell

/-- An outline is a document. -/
abbrev Outline := Value Number

namespace Outline

/-- A member that is left out where it is empty. -/
def part (key : Text) (members : List (Text × Outline)) : List (Text × Outline) :=
  if members.isEmpty then [] else [(key, .obj members)]

/-- The members of a widget: its class, its settings and its children. -/
def members (className : Text) (props : List (Text × Outline)) (children : List Outline) :
    List (Text × Outline) :=
  let named : List (Text × Outline) := [("class", .str className)]
  let inside : List (Text × Outline) :=
    if children.isEmpty then [] else [("children", .arr children)]
  named ++ part "props" props ++ inside

/-- A widget that shows nothing of its own. -/
def plain (className : Text) (props : List (Text × Outline)) (children : List Outline) : Outline :=
  .obj (members className props children)

/-- A widget with what it shows. -/
def showing (className : Text) (state : Outline) (props : List (Text × Outline) := [])
    (children : List Outline := []) : Outline :=
  .obj (("state", state) :: members className props children)

/-- What a widget shows that has a text and can be switched on or off. -/
def textAnd (text : Text) (on : Bool) : Outline := .arr [.str text, .bool on]

/-- Mark a widget as disabled. -/
def disabled : Outline → Outline
  | .obj ms => .obj (("enabled", .bool false) :: ms)
  | v => v

/-- Mark a widget as disabled unless it is enabled. -/
def enabledIf (enabled : Bool) (o : Outline) : Outline := if enabled then o else disabled o

/-- A list of numbers. -/
def numbers (ns : List Int) : Outline := .arr (ns.map fun n => .int n)

/-- A label. -/
def label (text : Text) : Outline := showing "QLabel" (.str text)

/-- A field for text. -/
def textField (text : Outline) (props : List (Text × Outline) := []) : Outline :=
  showing "QLineEdit" text props

/-- A button. -/
def button (text : Text) (enabled : Bool) (props : List (Text × Outline) := []) : Outline :=
  enabledIf enabled (showing "QPushButton" (textAnd text enabled) props)

/-- A box to tick. -/
def checkBox (text : Text) (on : Bool) : Outline := showing "QCheckBox" (textAnd text on)

/-- What a list of choices shows: the place and the text of the present choice. -/
def choice (items : List (Text × Outline)) (index : Option Nat) : Outline :=
  match index with
  | some i => .arr [.int i, .str ((items[i]?.map Prod.fst).getD [])]
  | none => .arr [.int (-1), .str []]

/-- A list of choices, each with a text and a value. -/
def comboBox (items : List (Text × Outline)) (index : Option Nat) : Outline :=
  .obj [("class", .str "QComboBox"), ("state", choice items index),
    ("items", .arr (items.map fun (text, value) => .arr [.str text, value]))]

/-- A field for a number. -/
def spinBox (className : Text) (low high value : Outline) (props : List (Text × Outline) := []) :
    Outline :=
  let numbers : List (Text × Outline) := [("state", value), ("range", .arr [low, high])]
  .obj (numbers ++ members className props [])

/-- The margins of a layout. -/
def margins (left top right bottom : Int) : Text × Outline :=
  ("setContentsMargins", numbers [left, top, right, bottom])

/-- A row of widgets that keeps to the left. -/
def row (widgets : List Outline) : Outline :=
  plain "QWidget" []
    [plain "QHBoxLayout" [margins 0 0 0 0, ("setSpacing", .int 4), ("addStretch", .int 1)] widgets]

/-- A form: rows with labels, of which some are hidden. -/
def form (props : List (Text × Outline)) (hidden : List Text) (rows : List Outline) : Outline :=
  showing "QFormLayout" (.obj [("hidden_rows", .arr (hidden.map .str))]) props rows

/-- A row of a form. -/
def formRow (label : Text) (widget : Outline) : Outline := .arr [.str label, widget]

/-- A group of widgets with a title. -/
def group (className title : Text) (enabled : Bool) (content : Outline) : Outline :=
  enabledIf enabled (showing className (textAnd title enabled) [] [content])

end Outline

end LayoutDesigner.Shell
