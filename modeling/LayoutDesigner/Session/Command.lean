import LayoutDesigner.Session

/-!
# The commands of a session

Everything that can be asked of a session, as one type. The arguments are unchecked: a command
deals with whatever it gets.
-/

namespace LayoutDesigner

/-- A command with its arguments. -/
inductive Command (α : Type) where
  | newProject
  | select (id : Value α)
  | clearSelection
  | setProjectField (field value : Value α)
  | setZoom (value : Value α)
  | setShowSafeArea (visible : Value α)
  | createNode (kind : Value α)
  | deleteSelected
  | duplicateSelected
  | moveSelected (up : Bool)
  | reorderDrop (dragged target position : Value α)
  | setProperty (field value : Value α)
  | addExtension (kind : Value α)
  | removeExtension (nodeId extensionId : Value α)
  | setExtensionProp (nodeId extensionId key value : Value α)
  | pointerDown (e : PointerEvent α)
  | pointerMove (e : PointerEvent α)
  | pointerUp (e : PointerEvent α)
  | losePointer
  | exportScript
  | loadSnapshot (data : Value α)

/-- A command by its name and its arguments, where a missing argument is null. The pointer's
commands are not among them, since they take an event. -/
def Command.ofName? {α : Type} (name : Text) (arguments : List (Value α)) : Option (Command α) :=
  let a (i : Nat) : Value α := arguments[i]?.getD .null
  let commands : List (Text × Command α) :=
    [("new_project", .newProject), ("select", .select (a 0)), ("clear_selection", .clearSelection),
      ("set_project_field", .setProjectField (a 0) (a 1)), ("set_zoom", .setZoom (a 0)),
      ("set_show_safe_area", .setShowSafeArea (a 0)), ("create_node", .createNode (a 0)),
      ("delete_selected", .deleteSelected), ("duplicate_selected", .duplicateSelected),
      ("move_up_selected", .moveSelected true), ("move_down_selected", .moveSelected false),
      ("reorder_drop", .reorderDrop (a 0) (a 1) (a 2)), ("set_property", .setProperty (a 0) (a 1)),
      ("add_extension", .addExtension (a 0)), ("remove_extension", .removeExtension (a 0) (a 1)),
      ("set_extension_prop", .setExtensionProp (a 0) (a 1) (a 2) (a 3)),
      ("lose_pointer", .losePointer), ("export_script", .exportScript),
      ("load_snapshot", .loadSnapshot (a 0))]
  (commands.find? fun command => command.1 = name).map Prod.snd

namespace Session

variable {α : Type} [Arith α]

/-- An id as a document, null where there is none. -/
def idValue : Option Text → Value α
  | some id => .str id
  | none => .null

/-- Run a command; the answer is a document. -/
def run : Command α → Edit (Session α) (Value α)
  | .newProject => do
    newProject
    return .null
  | .select id => do
    select id
    return .null
  | .clearSelection => do
    select .null
    return .null
  | .setProjectField field value => do return .bool (← setProjectField field value)
  | .setZoom value => do
    setZoom value
    return .null
  | .setShowSafeArea visible => do
    setShowSafeArea visible
    return .null
  | .createNode kind => do return idValue (← createNode kind)
  | .deleteSelected => do return .int (← deleteSelected)
  | .duplicateSelected => do return idValue (← duplicateSelected)
  | .moveSelected up => do return .bool (← moveSelected up)
  | .reorderDrop dragged target position => do return .bool (← reorderDrop dragged target position)
  | .setProperty field value => do return .bool (← setProperty field value)
  | .addExtension kind => do
    return match ← addExtension kind with
      | some e => e.toRecord
      | none => .null
  | .removeExtension nodeId extensionId => do return .bool (← removeExtension nodeId extensionId)
  | .setExtensionProp nodeId extensionId key value => do
    return .bool (← setExtensionProp nodeId extensionId key value)
  | .pointerDown e => do return .bool (← pointerDown e)
  | .pointerMove e => do return .bool (← pointerMove e)
  | .pointerUp e => do return .bool (← pointerUp e)
  | .losePointer => do
    losePointer
    return .null
  | .exportScript => do return .str (← exportScript)
  | .loadSnapshot data => do return .bool (← loadSnapshot data)

end Session

end LayoutDesigner
