import LayoutDesigner.Value

/-!
# Project metadata

A project has a name for the generated screen, a flag that it is reset on spawn, a parent at run
time and a naming mode for the script. The values may come unchecked from settings; reading them
from a document and editing them leaves well-typed values.
-/

namespace LayoutDesigner

/-- Where the generated screen is parented at run time, first choice. -/
def playerGui : Text := "PlayerGui"

/-- Where the generated screen is parented at run time, second choice. -/
def coreGui : Text := "CoreGui"

/-- The naming mode with one meaningful local variable per node. -/
def variablesMode : Text := "variables"

/-- The naming mode with everything inside one block. -/
def nestedMode : Text := "nested"

/-- The metadata kept beside the nodes. -/
structure Project (α : Type) where
  guiName : Value α := .str "HelloWorldGui"
  resetOnSpawn : Value α := .bool false
  runtimeParent : Value α := .str playerGui
  outputMode : Value α := .str variablesMode
  deriving Inhabited

namespace Project

variable {α : Type}

/-- The parent at run time is one of the two choices. -/
def isRuntimeParent : Value α → Bool
  | .str t => t == playerGui || t == coreGui
  | _ => false

/-- The naming mode is one of the two modes. -/
def isOutputMode : Value α → Bool
  | .str t => t == variablesMode || t == nestedMode
  | _ => false

/-- The script puts everything inside one block. -/
def isNested (p : Project α) : Bool :=
  match p.outputMode with
  | .str t => t == nestedMode
  | _ => false

/-- The screen is parented where only core scripts may reach. -/
def usesCoreGui (p : Project α) : Bool :=
  match p.runtimeParent with
  | .str t => t == coreGui
  | _ => false

variable [Arith α]

/-- Read the metadata from a document; what is missing or unusable is taken from `base`. -/
def ofValue (v : Value α) (base : Project α) : Project α :=
  match v with
  | .obj d =>
    let name := Value.field "guiName" d
    let parent := (Value.member? "parent" d).getD base.runtimeParent
    let mode := (Value.member? "outputMode" d).getD base.outputMode
    { guiName := .str (if name.truthy then name.shown else base.guiName.shown)
      resetOnSpawn := .bool ((Value.member? "resetOnSpawn" d).getD base.resetOnSpawn).toBool
      runtimeParent := if isRuntimeParent parent then parent else base.runtimeParent
      outputMode := if isOutputMode mode then mode else base.outputMode }
  | _ => base

/-- The metadata as a document. -/
def toValue (p : Project α) : Value α :=
  .obj [("guiName", p.guiName), ("resetOnSpawn", p.resetOnSpawn), ("parent", p.runtimeParent),
    ("outputMode", p.outputMode)]

/-- The names of the fields. -/
def fieldNames : List Text := ["gui_name", "reset_on_spawn", "runtime_parent", "output_mode"]

/-- The fields under their names. -/
def toFields (p : Project α) : List (Text × Value α) :=
  [("gui_name", p.guiName), ("reset_on_spawn", p.resetOnSpawn),
    ("runtime_parent", p.runtimeParent), ("output_mode", p.outputMode)]

/-- The metadata with the named fields as they came, the others at their defaults. An unknown name is
refused. -/
def ofFields (fields : List (Text × Value α)) : Except Fault (Project α) :=
  let base : Project α := {}
  let part (name : Text) (default : Value α) : Value α := (Value.member? name fields).getD default
  if fields.all fun (name, _) => fieldNames.elem name then
    .ok {
      guiName := part "gui_name" base.guiName
      resetOnSpawn := part "reset_on_spawn" base.resetOnSpawn
      runtimeParent := part "runtime_parent" base.runtimeParent
      outputMode := part "output_mode" base.outputMode }
  else .error .wrongType

/-- Edit one field. An unknown field and a value that is no choice of the field change nothing and
answer false. -/
def setField (p : Project α) (field : Text) (value : Value α) : Project α × Bool :=
  if field = ("gui_name" : Text) then
    let name := (if value.truthy then value.shown else []).strip
    ({ p with guiName := .str (name.orElse "ScreenGui") }, true)
  else if field = ("reset_on_spawn" : Text) then
    ({ p with resetOnSpawn := .bool value.toBool }, true)
  else if field = ("runtime_parent" : Text) then
    if isRuntimeParent value then ({ p with runtimeParent := value }, true) else (p, false)
  else if field = ("output_mode" : Text) then
    if isOutputMode value then ({ p with outputMode := value }, true) else (p, false)
  else (p, false)

end Project

end LayoutDesigner
