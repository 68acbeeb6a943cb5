import LayoutDesigner.Settings
import LayoutDesigner.Shell.Outline

/-!
# The script panel

The panel shows the last script that was made. It can be copied and downloaded while there is one.
-/

namespace LayoutDesigner.Shell

/-- The script panel. -/
structure ScriptPanel where
  text : Text := []
  /-- Whether the script can be handed out. -/
  enabled : Bool := false

namespace ScriptPanel

variable {α : Type}

/-- Show the script of the session. -/
def ofSession (s : Session α) : ScriptPanel := ⟨s.script, s.exportEnabled⟩

/-- What the dialog for a file name says. -/
def saveTitle : Text := "Save Lua script"

/-- The kinds of file that the dialog offers. -/
def fileKinds : Text := "Lua (*.lua);;All files (*)"

/-- The title of the panel. -/
def title : Text := "Generated Lua"

/-- The panel as a document. -/
def toDocument (p : ScriptPanel) : Outline :=
  .obj [("text", .str p.text), ("export_btn", Outline.textAnd "Export" true),
    ("copy_btn", Outline.textAnd "Copy" p.enabled),
    ("download_btn", Outline.textAnd "Download…" p.enabled)]

/-- The outline of the panel. -/
def outline (p : ScriptPanel) (s : Settings) : Outline :=
  let font : Outline :=
    .obj [("family", s.value .fontFamily), ("size", s.value .fontSize), ("hint", .str "Monospace")]
  let text := Outline.showing "QPlainTextEdit" (.str p.text)
    [("setReadOnly", .bool true), ("setFont", font),
      ("setPlaceholderText", .str "Press Export (Ctrl+E) to generate the script...")]
  let buttons := Outline.plain "QHBoxLayout" [("addStretch", .arr [])]
    [Outline.button "Export" true [("setToolTip", .str "Generate the Lua script (Ctrl+E)")],
      Outline.button "Copy" p.enabled, Outline.button "Download…" p.enabled]
  Outline.showing "ScriptDock" (.str title) []
    [Outline.plain "QWidget" [] [Outline.plain "QVBoxLayout" [] [text, buttons]]]

end ScriptPanel

end LayoutDesigner.Shell
