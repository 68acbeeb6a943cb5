import LayoutDesigner.FilePath
import LayoutDesigner.Session
import LayoutDesigner.Toml.Writer

/-!
# Settings

The settings are values under fixed paths of sections and keys. A settings file may leave out any of
them; what it leaves out has its default. The values are taken as they come.
-/

namespace LayoutDesigner

/-- What can be set. -/
inductive Setting where
  | workspaceDir | autosaveFile
  | canvasWidth | canvasHeight
  | handleSize | handleBorder | handleFill
  | leastSide | duplicateOffset
  | zoomMinimum | zoomMaximum | zoomStep
  | fontFamily | fontSize
  | keywordColor | keywordBold | stringColor | numberColor | builtinColor | commentColor
  | guiName | resetOnSpawn | runtimeParent | outputMode
  deriving DecidableEq, Repr

/-- The settings. -/
structure Settings where
  value : Setting → Document

namespace Setting

/-- Everything that can be set, in the order of the file. -/
def all : List Setting :=
  [.workspaceDir, .autosaveFile, .canvasWidth, .canvasHeight, .handleSize, .handleBorder,
    .handleFill, .leastSide, .duplicateOffset, .zoomMinimum, .zoomMaximum, .zoomStep, .fontFamily,
    .fontSize, .keywordColor, .keywordBold, .stringColor, .numberColor, .builtinColor,
    .commentColor, .guiName, .resetOnSpawn, .runtimeParent, .outputMode]

/-- The key of a setting in its table. -/
def key : Setting → Text
  | .workspaceDir => "workspace_dir"
  | .autosaveFile => "autosave_file"
  | .canvasWidth => "width"
  | .canvasHeight => "height"
  | .handleSize => "size"
  | .handleBorder => "border_color"
  | .handleFill => "fill_color"
  | .leastSide => "min_size"
  | .duplicateOffset => "duplicate_offset"
  | .zoomMinimum => "minimum"
  | .zoomMaximum => "maximum"
  | .zoomStep => "wheel_step"
  | .fontFamily => "family"
  | .fontSize => "size"
  | .keywordColor => "keyword_color"
  | .keywordBold => "keyword_bold"
  | .stringColor => "string_color"
  | .numberColor => "number_color"
  | .builtinColor => "builtin_color"
  | .commentColor => "comment_color"
  | .guiName => "gui_name"
  | .resetOnSpawn => "reset_on_spawn"
  | .runtimeParent => "runtime_parent"
  | .outputMode => "output_mode"

/-- What a setting is where it is not set. -/
def default : Setting → Document
  | .workspaceDir => .str []
  | .autosaveFile => .str "project.json"
  | .canvasWidth => .int 980
  | .canvasHeight => .int 620
  | .handleSize => .num (Arith.ofDecimal 8 0)
  | .handleBorder => .str "#0078D7"
  | .handleFill => .str "#FFFFFF"
  | .leastSide => .int LayoutDesigner.leastSide
  | .duplicateOffset => .int 12
  | .zoomMinimum => .num (Arith.ofDecimal 5 1)
  | .zoomMaximum => .num (Arith.ofDecimal 2 0)
  | .zoomStep => .num (Arith.ofDecimal 1 1)
  | .fontFamily => .str "Consolas"
  | .fontSize => .int 10
  | .keywordColor => .str "#D35400"
  | .keywordBold => .bool true
  | .stringColor => .str "#27AE60"
  | .numberColor => .str "#8E44AD"
  | .builtinColor => .str "#2E86C1"
  | .commentColor => .str "#808B96"
  | .guiName => .str "HelloWorldGui"
  | .resetOnSpawn => .bool false
  | .runtimeParent => .str playerGui
  | .outputMode => .str variablesMode

end Setting

namespace Settings

/-- A table of settings inside a section. -/
abbrev Group := Text × List Setting

/-- The settings that stand in the section itself. -/
def generalKeys : List Setting := [.workspaceDir, .autosaveFile]

/-- The tables of the section of the canvas. -/
def canvasGroups : List Group :=
  [("size", [.canvasWidth, .canvasHeight]),
    ("handles", [.handleSize, .handleBorder, .handleFill]),
    ("edit", [.leastSide, .duplicateOffset]),
    ("zoom", [.zoomMinimum, .zoomMaximum, .zoomStep])]

/-- The tables of the section of the editor. -/
def editorGroups : List Group :=
  [("font", [.fontFamily, .fontSize]),
    ("syntax", [.keywordColor, .keywordBold, .stringColor, .numberColor, .builtinColor, .commentColor])]

/-- The settings of new projects. -/
def projectKeys : List Setting := [.guiName, .resetOnSpawn, .runtimeParent, .outputMode]

/-- The name of the directory of saved designs where none is set. -/
def workspaceName : Text := "guiforge"

/-- The settings that nothing changed. -/
def defaults : Settings := ⟨Setting.default⟩

/-- Set a setting. -/
def set (s : Settings) (k : Setting) (v : Document) : Settings :=
  ⟨fun other => if other = k then v else s.value other⟩

/-- The table of a section that a setting stands in, as far as it has a name among the settings. -/
def tableOf (k : Setting) : List Text :=
  if generalKeys.elem k then []
  else if projectKeys.elem k then ["project"]
  else
    match canvasGroups.find? fun g => g.2.elem k, editorGroups.find? fun g => g.2.elem k with
    | some g, _ => ["canvas", g.1]
    | none, some g => ["editor", g.1]
    | none, none => []

/-- The name of a setting: its table and its key with dots between them. -/
def nameOf (k : Setting) : Text := Text.join "." (tableOf k ++ [k.key])

/-- The tables by their paths, those above others first. -/
def tables : List (List Text) :=
  let canvas : Text := "canvas"
  let editor : Text := "editor"
  [[], [canvas], [editor], ["project"]] ++ canvasGroups.map (fun g => [canvas, g.1]) ++
    editorGroups.map fun g => [editor, g.1]

/-- Set what a name with dots names. A name in a table that is no setting changes nothing; there is
nothing to set outside the tables, and no table can be replaced. -/
def edit (s : Settings) (name : Text) (v : Document) : Except Fault Settings :=
  let path := Text.splitOn '.' name
  if tables.elem path || !tables.elem path.dropLast then .error .wrongMember
  else
    match Setting.all.find? fun k => nameOf k = name with
    | some k => .ok (s.set k v)
    | none => .ok s

/-- Set the setting of new projects under a key; a key of no setting changes nothing. -/
def editProject (s : Settings) (key : Text) (v : Document) : Settings :=
  match projectKeys.find? fun k => k.key = key with
  | some k => s.set k v
  | none => s

/-- The settings as the members of a table. -/
def writeKeys (s : Settings) (keys : List Setting) : List (Text × Document) :=
  keys.map fun k => (k.key, s.value k)

/-- The settings of a section with tables. -/
def writeGroups (s : Settings) (groups : List Group) : List (Text × Document) :=
  groups.map fun (name, keys) => (name, .obj (s.writeKeys keys))

/-- The sections of the settings file. -/
def toMembers (s : Settings) : List (Text × Document) :=
  [("general", .obj (s.writeKeys generalKeys)), ("canvas", .obj (s.writeGroups canvasGroups)),
    ("editor", .obj (s.writeGroups editorGroups)), ("project", .obj (s.writeKeys projectKeys))]

/-- The text of the settings file. -/
def toText (s : Settings) : Except Fault Text := Toml.write s.toMembers

/-- The text of the settings file, which has to be such that a file can hold it. -/
def toFile (s : Settings) : Except Fault Text := do
  let t ← s.toText
  if t.encode?.isNone then throw .unencodable
  return t

/-- A key that is looked for in a table and the setting that its value is for. -/
abbrev Entry := Text × Setting

/-- What is looked for in the first section. -/
def generalEntries : List Entry :=
  [("workspace_dir", .workspaceDir), ("autosave_file", .autosaveFile)]

/-- What is looked for in the tables of the section of the canvas. -/
def canvasEntries : List (Text × List Entry) :=
  [("size", [("width", .canvasWidth), ("height", .canvasHeight)]),
    ("handles", [("size", .handleSize), ("border_color", .handleBorder),
      ("fill_color", .handleFill)]),
    ("edit", [("min_size", .leastSide), ("duplicate_offset", .duplicateOffset)]),
    ("zoom", [("minimum", .zoomMinimum), ("maximum", .zoomMaximum), ("wheel_step", .zoomStep)])]

/-- What is looked for in the tables of the section of the editor. -/
def editorEntries : List (Text × List Entry) :=
  [("font", [("family", .fontFamily), ("size", .fontSize)]),
    ("syntax", [("keyword_color", .keywordColor), ("keyword_bold", .keywordBold),
      ("string_color", .stringColor), ("number_color", .numberColor),
      ("builtin_color", .builtinColor), ("comment_color", .commentColor)])]

/-- What is looked for in the section of new projects. -/
def projectEntries : List Entry :=
  [("gui_name", .guiName), ("reset_on_spawn", .resetOnSpawn), ("runtime_parent", .runtimeParent),
    ("output_mode", .outputMode)]

/-- Take the value under a key, if it is there. -/
def take (members : List (Text × Document)) (s : Settings) (e : Entry) : Settings :=
  match Value.member? e.1 members with
  | some v => s.set e.2 v
  | none => s

/-- Take the settings that a table has. -/
def readKeys (s : Settings) (entries : List Entry) (table : Document) : Except Fault Settings :=
  match table with
  | .obj members => .ok (entries.foldl (take members) s)
  | _ => .error .wrongMember

/-- Take the settings of a table inside a section, if it is there. Of what is no section, texts
and lists can tell whether a name is in them, but have no table under it. -/
def readGroup (s : Settings) (table : Document) (g : Text × List Entry) : Except Fault Settings :=
  match table with
  | .obj members =>
    match Value.member? g.1 members with
    | some inner => s.readKeys g.2 inner
    | none => .ok s
  | .str t => if Text.contains g.1 t then .error .wrongType else .ok s
  | .arr items => if items.any fun item => item.same (.str g.1) then .error .wrongType else .ok s
  | _ => .error .wrongType

/-- A section of a settings file, empty where it is missing. -/
def section? (name : Text) (members : List (Text × Document)) : Document :=
  (Value.member? name members).getD (.obj [])

/-- Take the settings from a document. -/
def ofDocument (data : Document) : Except Fault Settings := do
  let .obj members := data | throw .wrongMember
  let s ← defaults.readKeys generalEntries (section? "general" members)
  let s ← canvasEntries.foldlM (fun s g => s.readGroup (section? "canvas" members) g) s
  let s ← editorEntries.foldlM (fun s g => s.readGroup (section? "editor" members) g) s
  s.readKeys projectEntries (section? "project" members)

/-- Load the settings from the text of a file. What is no settings file gives the defaults. -/
def ofFile (text : Text) : Except Fault Settings :=
  match Toml.read text with
  | .error (.numeralTooLong digits) => .error (.numeralTooLong digits)
  | .error _ => .ok defaults
  | .ok data =>
    match ofDocument data with
    | .ok s => .ok s
    | .error _ => .ok defaults

/-- Load the settings from a file that may be missing. -/
def load (file : Option Text) : Except Fault Settings :=
  match file with
  | none => .ok defaults
  | some text => ofFile text

/-- The settings file after it is made sure that there is one. -/
def completeFile (s : Settings) (file : Option Text) : Except Fault Text :=
  match file with
  | some text => .ok text
  | none => s.toFile

/-- A path that a value spells; a value that is no text spells none. -/
def pathOf (v : Document) : Except Fault FilePath :=
  match v with
  | .str t => .ok (FilePath.ofText t)
  | _ => .error .wrongType

/-- The directory of saved designs, where one is set. -/
def workspace? (s : Settings) : Except Fault (Option FilePath) :=
  if (s.value .workspaceDir).truthy then (pathOf (s.value .workspaceDir)).map some else .ok none

/-- The file of saved designs in a directory. -/
def snapshotPath (s : Settings) (workspace : FilePath) : Except Fault FilePath := do
  return workspace.join (← pathOf (s.value .autosaveFile))

/-- The metadata of new projects. -/
def project (s : Settings) : Project Number :=
  Project.ofValue
    (.obj [("guiName", s.value .guiName), ("resetOnSpawn", s.value .resetOnSpawn),
      ("parent", s.value .runtimeParent), ("outputMode", s.value .outputMode)]) {}

/-- A new session with these settings. -/
def newSession (s : Settings) (idSupply : Nat → Text) : Session Number :=
  Session.new (s.value .canvasWidth, s.value .canvasHeight) (s.value .leastSide)
    (s.value .duplicateOffset) Arith.one (.arr [s.value .zoomMinimum, s.value .zoomMaximum])
    s.project idSupply

end Settings

end LayoutDesigner
