import LayoutDesigner.Kind
import LayoutDesigner.Shell.Outline

/-!
# Help

The help dialog has three pages: how to begin, the kinds of element, and the keyboard shortcuts.
-/

namespace LayoutDesigner.Shell.Help

/-- The text of lines, each ended. -/
def page (lines : List String) : Text := Text.ofString (String.join (lines.map fun l => l ++ "\n"))

/-- How to begin. -/
def quickStart : Text := page [
  "<h2>Quick Start</h2>",
  "",
  "<h3>1. Add Instances</h3>",
  "<p>Click a kind in the <b>Toolbox</b> toolbar. The new instance appears at",
  "the centre of the canvas and is selected.</p>",
  "",
  "<h3>2. Arrange</h3>",
  "<p>Drag an instance to move it, or drag one of its eight handles to resize.",
  "Drop it over a Frame or ScrollingFrame to make it a child. The",
  "<b>Explorer</b> shows the hierarchy; its order is the ZIndex order.</p>",
  "",
  "<h3>3. Edit Properties</h3>",
  "<p>The <b>Properties</b> dock edits the selected instance: name, parent,",
  "position, size, anchor, colours, text and extension objects such as",
  "UICorner or UIStroke. Project settings (ScreenGui name, parent, output",
  "mode) sit at the bottom.</p>",
  "",
  "<h3>4. Export</h3>",
  "<p>Press <b>Export</b> (Ctrl+E) to generate the Lua script. Copy it to the",
  "clipboard or download it as a <code>.lua</code> file.</p>",
  "",
  "<h3>5. Save &amp; Load</h3>",
  "<p><b>File &rarr; Save</b> writes the design to the workspace directory;",
  "<b>File &rarr; Load</b> restores it.</p>"]

/-- The keyboard shortcuts. -/
def shortcuts : Text := page [
  "<h2>Keyboard Shortcuts</h2>",
  "",
  "<table cellpadding=\"6\" cellspacing=\"0\" border=\"1\"",
  "       style=\"border-collapse:collapse; width:100%;\">",
  "  <tr style=\"background:#f0f0f0;\">",
  "    <th>Category</th><th>Shortcut</th><th>Action</th>",
  "  </tr>",
  "  <tr><td rowspan=\"3\"><b>File</b></td>",
  "      <td><code>Ctrl+N</code></td><td>New project</td></tr>",
  "  <tr><td><code>Ctrl+S</code></td><td>Save design</td></tr>",
  "  <tr><td><code>Ctrl+O</code></td><td>Load design</td></tr>",
  "",
  "  <tr><td rowspan=\"5\"><b>Editing</b></td>",
  "      <td><code>Delete</code></td><td>Delete selected instance</td></tr>",
  "  <tr><td><code>Ctrl+D</code></td><td>Duplicate</td></tr>",
  "  <tr><td><code>Ctrl+Up</code></td><td>Move up (raise ZIndex)</td></tr>",
  "  <tr><td><code>Ctrl+Down</code></td><td>Move down (lower ZIndex)</td></tr>",
  "  <tr><td><code>Ctrl+E</code></td><td>Export Lua</td></tr>",
  "",
  "  <tr><td rowspan=\"4\"><b>View</b></td>",
  "      <td><code>Ctrl+Wheel</code></td><td>Zoom</td></tr>",
  "  <tr><td><code>Ctrl++</code></td><td>Zoom in</td></tr>",
  "  <tr><td><code>Ctrl+-</code></td><td>Zoom out</td></tr>",
  "  <tr><td><code>Ctrl+0</code></td><td>Zoom 100%</td></tr>",
  "",
  "  <tr><td><b>Help</b></td>",
  "      <td><code>F1</code></td><td>Open this Help dialog</td></tr>",
  "</table>"]

/-- What elements of a kind can do, in words. -/
def capabilities (d : KindDescriptor) : List Text :=
  let words : List (Bool × Text) :=
    [(d.isContainer, "container"), (d.isTextual, "text"), (d.isImageLike, "image"),
      (d.isScrollable, "scrolling canvas")]
  words.filterMap fun (has, word) => if has then some word else none

/-- The row of a kind in the table of kinds. -/
def kindRow (d : KindDescriptor) : Text :=
  ("<tr><td><b>" : Text) ++ d.name ++ ("</b></td><td>" : Text) ++ Text.ofInt d.size.1 ++
    (" × " : Text) ++ Text.ofInt d.size.2 ++ ("</td><td>" : Text) ++
    (Text.join ", " (capabilities d)).orElse "-" ++ ("</td></tr>" : Text)

/-- The start of the page about kinds: what it is about and the head of its table. -/
def instancesHead : Text :=
  ([("<h2>Instances</h2><p>Only containers accept children. " : Text),
    "Dragging a node onto a container on the canvas or in the Explorer reparents it.</p>",
    "<table cellpadding=\"6\" cellspacing=\"0\" border=\"1\" ",
    "style=\"border-collapse:collapse; width:100%;\"><tr style=\"background:#f0f0f0;\">",
    "<th>Kind</th><th>Default size</th><th>Capabilities</th></tr>"] : List Text).flatten

/-- The kinds of element. -/
def instances : Text :=
  instancesHead ++ (Kind.all.map fun k => kindRow k.descriptor).flatten ++ ("</table>" : Text)

/-- The title of the box that tells what the program is. -/
def aboutTitle : Text := "About GuiForge"

/-- What the program is. -/
def about : Text :=
  ([("<h2>GuiForge</h2><p><b>v1.0</b> - Roblox ScreenGui layout designer</p>" : Text),
    "<p>Lay out GUI instances on a canvas and export a Lua script that rebuilds them at runtime.</p>",
    "<p>Built with PyQt6.</p>"] : List Text).flatten

/-- The page of the help dialog that tells the shortcuts. -/
def shortcutsPage : Int := 2

/-- A page of the help dialog. -/
def browser (title html : Text) : Outline :=
  .arr [.str title,
    Outline.plain "QTextBrowser" [("setOpenExternalLinks", .bool true), ("setHtml", .str html)] []]

/-- The help dialog, opened at a page. -/
def dialog (page : Outline) : Outline :=
  Outline.plain "HelpDialog"
    [("setWindowTitle", .str "GuiForge Help"), ("setMinimumSize", Outline.numbers [600, 480]),
      ("resize", Outline.numbers [680, 560])]
    [Outline.plain "QVBoxLayout" []
      [Outline.plain "QTabWidget" [("setCurrentIndex", page)]
        [browser "Quick Start" quickStart, browser "Instances" instances,
          browser "Keyboard Shortcuts" shortcuts],
        Outline.plain "QDialogButtonBox" [("buttons", .str "Close")] []]]

end LayoutDesigner.Shell.Help
