import LayoutDesigner.Session.Command
import LayoutDesigner.Shell.Outline
import LayoutDesigner.Shell.TextField

/-!
# Editors of extensions

The editor of an extension has a text field for every property in the table of its kind, and a
button that removes the extension.
-/

namespace LayoutDesigner.Shell

/-- The editor of an extension of a node. -/
structure ExtensionEditor where
  title : Text
  nodeId : Text
  extensionId : Text
  fields : List (Text × TextField)

namespace ExtensionEditor

/-- The keys of the properties of a kind. -/
def keysOf (kind : ExtensionKind) : List Text :=
  (kind.properties (α := Number)).map Prod.fst

/-- What the field of a property shows: the property, or its default where it is not there. -/
def propertyText (e : Extension Number) (key : Text) : Except Fault Text :=
  fieldText ((Value.member? key e.props).getD (Value.field key e.kind.defaults))

/-- Show the properties of an extension. Only an object has properties to show. -/
def showing (editor : ExtensionEditor) (e : Extension Number) : Except Fault ExtensionEditor := do
  if !editor.fields.isEmpty && e.unchecked.isSome then throw .wrongMember
  let fields ← editor.fields.mapM fun (key, field) => do
    return (key, field.display (.str (← propertyText e key)))
  return { editor with fields }

/-- A new editor of an extension. -/
def new (nodeId : Text) (e : Extension Number) : Except Fault ExtensionEditor := do
  let _ ← e.shownKind.asId
  showing ⟨e.shownKind.shown, nodeId, e.id, (keysOf e.kind).map fun key => (key, {})⟩ e

/-- Type into the field of a property. -/
def type (editor : ExtensionEditor) (key : Text) (field : TextField) : ExtensionEditor :=
  { editor with fields := editor.fields.map fun (k, f) => (k, if k = key then field else f) }

/-- The command that what was typed for a property stands for. -/
def commit (editor : ExtensionEditor) (key : Text) (text : Value Number) : Command Number :=
  .setExtensionProp (.str editor.nodeId) (.str editor.extensionId) (.str key) text

/-- The command that the button stands for. -/
def removal (editor : ExtensionEditor) : Command Number :=
  .removeExtension (.str editor.nodeId) (.str editor.extensionId)

/-- The look of small buttons. -/
def compactStyle : Text × Outline :=
  ("setStyleSheet", .str "padding: 2px 6px; font-size: 10px; min-width: 40px;")

/-- The editor as a document. -/
def toDocument (editor : ExtensionEditor) : Outline :=
  .arr [.str editor.title, .str editor.nodeId, .str editor.extensionId,
    .obj (editor.fields.map fun (key, field) => (key, field.text))]

/-- The outline of the editor. -/
def outline (editor : ExtensionEditor) : Outline :=
  let rows := editor.fields.map fun (key, field) =>
    Outline.formRow (key ++ (":" : Text)) (Outline.textField field.text)
  let remove : Outline := .arr [Outline.row [Outline.button "Remove" true [compactStyle]]]
  Outline.group "ExtensionEditor" editor.title true
    (Outline.form [Outline.margins 6 4 6 4] [] (rows ++ [remove]))

end ExtensionEditor

end LayoutDesigner.Shell
