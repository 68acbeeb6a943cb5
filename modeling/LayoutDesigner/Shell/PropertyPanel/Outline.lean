import LayoutDesigner.Shell.PropertyPanel

/-!
# What the property panel shows

The panel as a document with the state of each of its widgets, and its outline with the widgets in
their places.
-/

namespace LayoutDesigner.Shell.PropertyPanel

/-- The labels of the rows that are hidden, from the top down. -/
def hiddenRows (p : PropertyPanel) : List Text :=
  let rows : List (Bool × Text) :=
    [(p.rows.textual, "Text:"), (p.rows.textual, "Text color:"), (p.rows.textual, "Font:"),
      (p.rows.imageLike, "Image:"), (p.rows.scrollable, "Canvas size:"),
      (p.rows.scrollable, "Scrollbar:")]
  rows.filterMap fun (shown, label) => if shown then none else some label

/-- The look of the preview of a colour. -/
def previewStyle (hex : Text) : Text :=
  ("background-color: " : Text) ++ hex ++ ("; border: 1px solid #444;" : Text)

/-- What the preview of a colour shows, once there is a colour. -/
def previewState (color : Option Text) : Outline :=
  match color with
  | none => .str []
  | some hex => .arr [.str [], .str (previewStyle hex)]

/-- What a list of choices shows. -/
def choiceState (p : PropertyPanel) (c : Choice) : Outline :=
  Outline.choice (p.itemsOf c) (p.choice c)

/-- What a text field shows. -/
def entryText (p : PropertyPanel) (e : Entry) : Outline := (p.entry e).text

/-- What a field for a number shows. -/
def counterState (p : PropertyPanel) (c : Counter) : Outline := .int (p.counter c)

/-- The panel as a document. -/
def toDocument (p : PropertyPanel) : Outline :=
  .obj [("kind_label", .str p.kind), ("node_group", Outline.textAnd "Instance" p.enabled),
    ("node_form", .obj [("hidden_rows", .arr (p.hiddenRows.map .str))]),
    (Entry.label .name, p.entryText .name), (Choice.label .parent, p.choiceState .parent),
    ("parent_items", .arr ((p.itemsOf .parent).map fun (label, id) => .arr [.str label, id])),
    ("geom_edits", .obj [("x", p.entryText .x), ("y", p.entryText .y), ("w", p.entryText .w),
      ("h", p.entryText .h)]),
    (Entry.label .anchor, p.entryText .anchor), (Counter.label .zIndex, p.counterState .zIndex),
    ("bg_color_btn", Outline.textAnd "Pick" true), ("bg_color_preview", previewState p.background),
    ("bg_alpha_spin", .num p.opacity),
    (Tick.label .border, Outline.textAnd "Show border" (p.tick .border)),
    (Entry.label .text, p.entryText .text), ("text_color_btn", Outline.textAnd "Pick" true),
    ("text_color_preview", previewState p.textColor),
    (Tick.label .textScaled, Outline.textAnd "Scaled" (p.tick .textScaled)),
    (Choice.label .font, p.choiceState .font), (Entry.label .image, p.entryText .image),
    ("scroll_spins", .obj [("canvas_w", p.counterState .canvasW),
      ("canvas_h", p.counterState .canvasH), ("scrollbar_thickness", p.counterState .scrollbar)]),
    ("ext_group", Outline.textAnd "Extensions" p.enabled),
    (Choice.label .extensionKind, p.choiceState .extensionKind), ("ext_add_btn", Outline.textAnd "Add" true),
    ("extensions", .arr (p.editors.map ExtensionEditor.toDocument)),
    ("extension_rows", .int p.editors.length), (Entry.label .guiName, p.entryText .guiName),
    (Tick.label .resetOnSpawn, Outline.textAnd "ResetOnSpawn" (p.tick .resetOnSpawn)),
    (Choice.label .runtimeParent, p.choiceState .runtimeParent),
    (Choice.label .outputMode, p.choiceState .outputMode)]

/-- A text field of the panel. -/
def fieldOutline (p : PropertyPanel) (e : Entry) (props : List (Text × Outline) := []) : Outline :=
  Outline.textField (p.entryText e) props

/-- A list of choices of the panel. -/
def comboOutline (p : PropertyPanel) (c : Choice) : Outline :=
  Outline.comboBox (p.itemsOf c) (p.choice c)

/-- A field for a whole number of the panel. -/
def spinOutline (p : PropertyPanel) (c : Counter) (props : List (Text × Outline) := []) : Outline :=
  Outline.spinBox "QSpinBox" (.int c.least) (.int Counter.greatest) (p.counterState c) props

/-- A button that is small. -/
def smallButton (text : Text) : Outline := Outline.button text true [ExtensionEditor.compactStyle]

/-- The preview of a colour. -/
def preview (color : Option Text) : Outline :=
  let style : List (Text × Outline) :=
    match color with
    | none => []
    | some hex => [("setStyleSheet", .str (previewStyle hex))]
  let fixed : List (Text × Outline) :=
    [("setFixedSize", Outline.numbers [24, 24]), ("setAutoFillBackground", .bool true)]
  Outline.showing "QLabel" (previewState color) (fixed ++ style)

/-- Two text fields for a pair of numbers, each after its letter. -/
def pairOutline (p : PropertyPanel) (first second : Text × Entry) : Outline :=
  let narrow : List (Text × Outline) := [("setMaximumWidth", .int 70)]
  Outline.row [Outline.label first.1, p.fieldOutline first.2 narrow, Outline.label second.1,
    p.fieldOutline second.2 narrow]

/-- The field for the opacity. -/
def opacityOutline (p : PropertyPanel) : Outline :=
  Outline.spinBox "QDoubleSpinBox" (.num Arith.zero) (.num Arith.one) (.num p.opacity)
    [("setSingleStep", .num (Arith.ofDecimal 5 2)), ("setToolTip", .str "Opacity (1 = opaque)")]

/-- The rows that every node has. -/
def commonRows (p : PropertyPanel) : List Outline :=
  [Outline.formRow "Kind:" (Outline.label p.kind), Outline.formRow "Name:" (p.fieldOutline .name),
    Outline.formRow "Parent:" (p.comboOutline .parent),
    Outline.formRow "Position:" (p.pairOutline ("X", .x) ("Y", .y)),
    Outline.formRow "Size:" (p.pairOutline ("W", .w) ("H", .h)),
    Outline.formRow "Anchor:" (p.fieldOutline .anchor
      [("setPlaceholderText", .str "ax,ay"),
        ("setToolTip", .str "Anchor point as two numbers in 0..1, e.g. 0.5,0.5")]),
    Outline.formRow "ZIndex:" (p.spinOutline .zIndex),
    Outline.formRow "Background:" (Outline.row [smallButton "Pick", preview p.background,
      Outline.label "Alpha", p.opacityOutline]),
    Outline.formRow "Border:" (Outline.checkBox "Show border" (p.tick .border))]

/-- The rows that only some kinds of node have. -/
def specialRows (p : PropertyPanel) : List Outline :=
  let pixels : List (Text × Outline) := [("setSuffix", .str " px")]
  [Outline.formRow "Text:" (p.fieldOutline .text),
    Outline.formRow "Text color:" (Outline.row [smallButton "Pick", preview p.textColor,
      Outline.checkBox "Scaled" (p.tick .textScaled)]),
    Outline.formRow "Font:" (p.comboOutline .font),
    Outline.formRow "Image:" (p.fieldOutline .image
      [("setPlaceholderText", .str "rbxassetid://...")]),
    Outline.formRow "Canvas size:" (Outline.row [p.spinOutline .canvasW pixels, Outline.label "×",
      p.spinOutline .canvasH pixels]),
    Outline.formRow "Scrollbar:" (p.spinOutline .scrollbar pixels)]

/-- The group with the extensions. -/
def extensionGroup (p : PropertyPanel) : Outline :=
  Outline.group "QGroupBox" "Extensions" p.enabled
    (Outline.plain "QVBoxLayout" []
      [Outline.row [p.comboOutline .extensionKind, smallButton "Add"],
        Outline.plain "QVBoxLayout" [Outline.margins 0 0 0 0]
          (p.editors.map ExtensionEditor.outline)])

/-- The group with the metadata of the project. -/
def projectGroup (p : PropertyPanel) : Outline :=
  Outline.group "QGroupBox" "Project" true
    (Outline.form [] []
      [Outline.formRow "ScreenGui:" (p.fieldOutline .guiName),
        Outline.formRow "" (Outline.checkBox "ResetOnSpawn" (p.tick .resetOnSpawn)),
        Outline.formRow "Parent:" (p.comboOutline .runtimeParent),
        Outline.formRow "Output:" (p.comboOutline .outputMode)])

/-- The outline of the panel. -/
def outline (p : PropertyPanel) : Outline :=
  let nodeGroup := Outline.group "QGroupBox" "Instance" p.enabled
    (Outline.form [] p.hiddenRows (p.commonRows ++ p.specialRows))
  let body := Outline.plain "QWidget" []
    [Outline.plain "QVBoxLayout" [("addStretch", .int 1)]
      [nodeGroup, p.extensionGroup, p.projectGroup]]
  Outline.plain "PropertyPanel" []
    [Outline.plain "QVBoxLayout" [Outline.margins 0 0 0 0]
      [Outline.plain "QScrollArea"
        [("setWidgetResizable", .bool true), ("setFrameShape", .str "NoFrame")] [body]]]

end LayoutDesigner.Shell.PropertyPanel
